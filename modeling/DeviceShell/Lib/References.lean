import DeviceShell.Lib.PyLib

/-!
# References in texts

Texts hold references of the form `${path}`. `matchReference` is the pattern `\$\{([^}]+)\}` at the
start of a text; `scan` finds the non-overlapping matches of such a pattern from left to right, as
`re.sub` and `re.findall` do.
-/

namespace DeviceShell

/-- `\$\{([^}]+)\}` at the start of a text: the path and what follows. -/
def matchReference : List Char → Option (List Char × List Char)
  | '$' :: '{' :: rest =>
    let path := rest.takeWhile (· ≠ '}')
    match path, rest.dropWhile (· ≠ '}') with
    | _ :: _, '}' :: after => some (path, after)
    | _, _ => none
  | _ => none

/-- The text with its references found, from left to right. The number bounds the length. -/
def scanFrom (pattern : List Char → Option (List Char × List Char)) :
    ℕ → List Char → List (Char ⊕ List Char)
  | 0, _ => []
  | _, [] => []
  | n + 1, c :: cs => match pattern (c :: cs) with
    | some (path, after) => .inr path :: scanFrom pattern n after
    | none => .inl c :: scanFrom pattern n cs

/-- The text with its references found, from left to right. -/
def scan (pattern : List Char → Option (List Char × List Char)) (text : String) :
    List (Char ⊕ List Char) := scanFrom pattern text.toList.length text.toList

/-- `pattern.findall(text)`. -/
def references (text : String) : List String :=
  (scan matchReference text).filterMap fun
    | .inl _ => none
    | .inr path => some (String.ofList path)

/-- `re.fullmatch(r"\$\{([^}]+)\}", text)`: the path. -/
def exactReference (text : String) : Option String :=
  match matchReference text.toList with
  | some (path, []) => some (String.ofList path)
  | _ => none

/-- `"${" + path + "}"`. -/
def referenceText (path : String) : String := "$\x7b" ++ path ++ "\x7d"

/-- `text.split(".")`, on characters. -/
def splitDots : List Char → List (List Char)
  | [] => [[]]
  | c :: cs => match c == '.', splitDots cs with
    | true, parts => [] :: parts
    | false, part :: parts => (c :: part) :: parts
    | false, [] => [[c]]

/-- `path.split(".")`. -/
def segments (path : String) : List String := (splitDots path.toList).map String.ofList

/-- `pattern.sub(f, text)` for a function that may raise. -/
def substitute {ε : Type} (pattern : List Char → Option (List Char × List Char))
    (f : String → Except ε String) (text : String) : Except ε String := do
  let parts ← (scan pattern text).mapM fun
    | .inl c => .ok (String.singleton c)
    | .inr path => f (String.ofList path)
  return String.join parts

/-- The index that a text of decimal digits is, where `isdecimal` holds. -/
def decimalIndex [PyLib] (segment : String) : Option ℕ :=
  if segment = "" then none
  else segment.toList.foldl (fun n c => do return 10 * (← n) + (← PyLib.digit c)) (some 0)

end DeviceShell
