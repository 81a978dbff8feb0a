import DeviceShell.Lib.Text

/-!
# Patterns of Python's `re`, left open

A program whose decisions rest on regular expressions that no proof looks into names them by their
text. What `re` finds with a text is a field of `PyRe`: a theorem over `PyRe` holds whatever the
engine finds, and so for Python's own.
-/

namespace DeviceShell

/-- The operations of `re` on a pattern and a text. -/
class PyRe where
  /-- `re.search`: the text that the match covers, and where it ends. -/
  search : String → String → Option (String × ℕ)
  /-- `re.fullmatch(pattern, text) is not None`. -/
  fullmatch : String → String → Bool
  /-- `re.sub(pattern, "", text)`. -/
  delete : String → String → String
  /-- The texts that the matches of `re.finditer` cover. -/
  findAll : String → String → List String
  /-- `re.escape(text)`. -/
  escape : String → String

/-- The engine on texts in which no pattern of a program occurs. -/
@[reducible] def PyRe.findsNothing : PyRe where
  search _ _ := none
  fullmatch _ _ := false
  delete _ text := text
  findAll _ _ := []
  escape text := text

/-- `text[-n:]`. -/
def lastChars (text : String) (n : ℤ) : String :=
  if n ≤ 0 then String.ofList (text.toList.drop (-n).toNat)
  else String.ofList (text.toList.drop (text.length - n.toNat))

/-- `text.replace("\r\n", "\n").replace("\r", "\n")` on the characters of a text. -/
def unixNewlines : List Char → List Char
  | [] => []
  | '\r' :: '\n' :: rest => '\n' :: unixNewlines rest
  | '\r' :: rest => '\n' :: unixNewlines rest
  | c :: rest => c :: unixNewlines rest

/-- `text.split("\n")`. -/
def lines (text : String) : List String := splitAtChars (· == '\n') [] text.toList

end DeviceShell
