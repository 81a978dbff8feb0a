import DeviceShell.Lib.PyRe
import DeviceShell.Lib.Redaction

/-!
# What terminal output is matched against

`application/terminal/matching.py`, with the parts of `execution.py` and `outcome.py` that it rests
on: the tokens a step waits for, the prompt on the last line of the output, and the redaction of
known values. The patterns are the code's own; what `re` finds with them is `PyRe`.
-/

namespace DeviceShell.Terminal

open Redaction

section

variable [PyLib] [PyRe]

/-- `strip_terminal_ansi`. -/
def stripTerminalAnsi (text : String) : String :=
  String.ofList (unixNewlines
    (PyRe.delete "(?:\\x1B[@-_][0-?]*[ -/]*[@-~])|(?:\\x9B[0-?]*[ -/]*[@-~])" text).toList)

/-! ## Prompts -/

/-- The `type` of a `PromptMatch`. -/
inductive PromptType where
  | confirmation
  | pagination
  | credential
  | unknownInput
  | command
deriving DecidableEq, Repr

/-- The code's text for a type of prompt. -/
def PromptType.text : PromptType → String
  | confirmation => "confirmation_prompt"
  | pagination => "pagination_prompt"
  | credential => "credential_prompt"
  | unknownInput => "unknown_input_prompt"
  | command => "command_prompt"

/-- Whether the type is in `INTERACTION_PROMPT_TYPES`. -/
def PromptType.isInteraction (type : PromptType) : Bool := type ≠ command

/-- `PromptMatch`. -/
structure PromptMatch where
  type : PromptType
  text : String
  view : String := ""
deriving DecidableEq, Repr

/-- The patterns that make the last line a prompt for input, in the order in which they are tried:
`_CONFIRMATION_RE`, `_PAGINATION_RE`, `_HOST_KEY_RE`, `_CREDENTIAL_RE` and `_UNKNOWN_INPUT_RE`. -/
def inputPatterns : List (String × PromptType) :=
  [("(?i)(?:\\[\\s*[yn](?:\\s*/\\s*[yn])+\\s*\\]|\\(\\s*[yn](?:\\s*/\\s*[yn])+\\s*\\)|" ++
      "yes\\s*/\\s*no)\\s*:?[ \\t]*$", .confirmation),
    ("(?i)(?:----\\s*more\\s*----|--more--)\\s*$", .pagination),
    ("(?i)(?:continue\\s+connecting|authenticity\\s+of\\s+host).\x7b0,160\x7d" ++
      "(?:yes\\s*/\\s*no|\\[fingerprint\\])[^\\r\\n]*[?:]?\\s*$", .credential),
    ("(?i)(?:user(?:name)?|login|account|password|passphrase|token)[^\\r\\n]*:\\s*$", .credential),
    ("(?i)(?:press\\s+(?:enter|return|any key|ctrl\\+[a-z])[^\\r\\n]*|select\\s+option\\s*:|" ++
      "continue\\?)\\s*$", .unknownInput)]

/-- `_COMMAND_PROMPT_PATTERNS`. -/
def commandPromptPatterns : List String :=
  ["<[^<>\\r\\n]\x7b1,128\x7d>", "\\[[^\\[\\]\\r\\n]\x7b1,128\x7d\\]",
    "[^\\s\\r\\n]\x7b1,160\x7d[$#]"]

/-- `_prompt_view`. -/
def promptView (prompt : String) : String :=
  if startsWith prompt "<" then "user"
  else if startsWith prompt "[" then if occursIn "-" prompt then "interface" else "system"
  else "shell"

/-- `classify_terminal_prompt`. -/
def classifyTerminalPrompt (text : String) : Option PromptMatch :=
  match (((lines (stripTerminalAnsi text)).map strip).filter (· ≠ "")).getLast? with
  | none => none
  | some candidate =>
    match inputPatterns.find? fun p => (PyRe.search p.1 candidate).isSome with
    | some (_, type) => some ⟨type, candidate, ""⟩
    | none =>
      if commandPromptPatterns.any fun pattern => PyRe.fullmatch pattern candidate then
        some ⟨.command, candidate, promptView candidate⟩
      else none

/-- `detect_terminal_prompt`. -/
def detectTerminalPrompt (text : String) : String :=
  match classifyTerminalPrompt text with
  | some ⟨.command, prompt, _⟩ => prompt
  | _ => ""

/-! ## Tokens -/

/-- `alias_patterns` of `match_token`. -/
def aliasPatterns : List (String × String) :=
  [("ftp_prompt", "(?im)(?:^|\\n)\\s*(?:ftp>|\\[ftp\\])\\s*$"),
    ("sftp_prompt", "(?im)(?:^|\\n)\\s*(?:(?:sftp|sftp-client)>|\\[sftp(?:-client)?\\])\\s*$"),
    ("username_prompt",
      "(?i)(?:(?:user(?:name)?)[ \\t]*\\([^()\\r\\n]*(?:\\([^()\\r\\n]*\\)[^()\\r\\n]*)?\\)" ++
        "[ \\t]*:(?:[ \\t]*\\([^()\\r\\n]*\\)[ \\t]*:)?|" ++
        "(?:user(?:name)?|name|account|login)[^\\r\\n]\x7b0,200\x7d?):[ \\t]*" ++
        "(?=[ \\t]*(?:password[ \\t]*:[ \\t]*)?(?:\\r+$|\\r+\\n|\\n|$))"),
    ("password_prompt", "(?i)password[ \\t]*:[ \\t]*(?=\\r+$|\\r+\\n|\\n|$)"),
    ("host_key_prompt", "(?i)(?:yes/no|continue connecting).\x7b0,80\x7d$"),
    ("pagination_prompt", "(?i)(?:----\\s*more\\s*----|--more--)\\s*$"),
    ("confirmation_prompt",
      "(?i)(?:\\[y/n\\]|\\(y/n\\)|yes/no)[ \\t]*:?[ \\t]*(?=\\r?$|\\r?\\n)")]

/-- `match_token`: what is matched, and where it ends. -/
def matchToken (text token : String) (caseSensitive : Bool) : Option (String × ℕ) :=
  if token = "device_prompt" then
    let prompt := detectTerminalPrompt text
    if prompt = "" then none else some (prompt, text.length)
  else match aliasPatterns.lookup token with
    | some pattern => (PyRe.search pattern text).map fun found => (strip found.1, found.2)
    | none =>
      let haystack := if caseSensitive then text else PyLib.casefold text
      let needle := if caseSensitive then token else PyLib.casefold token
      (find haystack needle 0).map fun index => (token, index + token.length)

/-- The body of the loop of `first_match`. -/
def firstOf (best found : Option (String × ℕ)) : Option (String × ℕ) :=
  match best, found with
  | some b, some f => if f.2 < b.2 then some f else some b
  | none, found => found
  | best, none => best

/-- `first_match`. -/
def firstMatch (text : String) (tokens : List String) (caseSensitive : Bool) :
    Option (String × ℕ) :=
  tokens.foldl (fun best token => firstOf best (matchToken text token caseSensitive)) none

/-- `re.search(r"password|passphrase", text, re.IGNORECASE)`. -/
def asksForPassword (text : String) : Bool :=
  (PyRe.search "(?i)password|passphrase" text).isSome

/-- `secret_ref_requires_redaction`. -/
def secretRefRequiresRedaction (secretRef : String) : Bool :=
  !endsWith (PyLib.casefold secretRef) ".username"

end

/-! ## Redaction -/

/-- `text.replace(value, "***")`. -/
def maskValue (text value : String) : String :=
  if value = "" then text
  else String.ofList (redact [value.toList] "***".toList text.toList)

/-- `redact_values`. The order of values of one length, which Python leaves open, is that of their
first occurrences. -/
def redactValues (text : String) (values : List String) : String :=
  (values.dedup.mergeSort fun a b => decide (b.length ≤ a.length)).foldl maskValue text

end DeviceShell.Terminal
