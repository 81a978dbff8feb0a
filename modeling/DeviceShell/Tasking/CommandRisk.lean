import DeviceShell.Lib.RegexSearch
import DeviceShell.Lib.Text

/-!
# The risk of a command

`classify_command_risk` of `application/ai/operations.py`. The classification reads the words of the
whole text: high-risk patterns anywhere in it, and apart from them its first word alone. So what is
found in one line of a text is found in the text (`highRisk_of_line`), while what a later line
begins with is not looked at.
-/

namespace DeviceShell.Tasking

/-- `RiskLevel`. -/
inductive RiskLevel where
  | observe
  | low
  | medium
  | high
  | flow
deriving DecidableEq, Repr

/-- `int(level)`. -/
def RiskLevel.value : RiskLevel → ℕ
  | .observe => 0
  | .low => 1
  | .medium => 2
  | .high => 3
  | .flow => 4

/-- `level.name.lower()`. -/
def RiskLevel.name : RiskLevel → String
  | .observe => "observe"
  | .low => "low"
  | .medium => "medium"
  | .high => "high"
  | .flow => "flow"

/-- `READ_ONLY_COMMANDS`. -/
def readOnlyCommands : List String := ["display", "dir", "ping", "screen-length", "show"]

/-- `MEDIUM_RISK_COMMANDS`. -/
def mediumRiskCommands : List String :=
  ["copy", "ftp", "get", "put", "sftp", "system-view", "telnet"]

section

variable [PyLib] [PyText]

/-- `\w`. -/
def isWordChar (c : Char) : Bool := PyText.isAlnum c || c == '_'

open Regex in
/-- A pattern between two `\b`. -/
def betweenBoundaries (rs : List Regex) : Regex :=
  seq (boundary isWordChar) (seq (all rs) (boundary isWordChar))

open Regex in
/-- `HIGH_RISK_COMMAND_PATTERNS`. -/
def highRiskPatterns : List Regex :=
  [betweenBoundaries [exact "delete"],
    betweenBoundaries [exact "erase"],
    betweenBoundaries [exact "format"],
    betweenBoundaries [exact "reboot"],
    betweenBoundaries [exact "reset"],
    betweenBoundaries [exact "save"],
    betweenBoundaries [exact "startup", plus true (chars isSpace), exact "system-software"],
    betweenBoundaries [exact "power", star true (chars isSpace), exact "off"],
    betweenBoundaries [exact "shutdown"],
    betweenBoundaries [exact "undo"]]

/-- `" ".join(command.strip().split()).casefold()`. -/
def normalizeCommand (command : String) : String :=
  PyLib.casefold (" ".intercalate (words (strip command)))

/-- One of the high-risk patterns is found in the command. -/
def highRisk (command : String) : Bool :=
  highRiskPatterns.any fun r => (r.search (normalizeCommand command)).isSome

/-- `normalized.split(maxsplit=1)[0]`. -/
def firstWord (normalized : String) : String := (words normalized).headD ""

/-- `classify_command_risk`. -/
def classifyCommandRisk (command : String) : RiskLevel :=
  let normalized := normalizeCommand command
  if normalized = "" then .observe
  else if highRisk command then .high
  else
    let first := firstWord normalized
    if first ∈ mediumRiskCommands then .medium
    else if first ∈ readOnlyCommands then .low
    else if startsWith normalized "sim upgrade " then .low
    else .medium

/-- What a command begins with is harmless: nothing, a read-only command or a simulated upgrade. -/
def beginsHarmlessly (command : String) : Bool :=
  let normalized := normalizeCommand command
  let first := firstWord normalized
  normalized == "" || (!mediumRiskCommands.contains first &&
    (readOnlyCommands.contains first || startsWith normalized "sim upgrade "))

/-- No pattern is found in a blank command. -/
theorem highRisk_of_blank {command : String} (h : normalizeCommand command = "") :
    highRisk command = false := by
  have hnil (rs : List Regex) : ((betweenBoundaries rs).search "").isSome = false := rfl
  unfold highRisk highRiskPatterns
  rw [h]
  simp only [List.any_cons, List.any_nil, hnil, Bool.or_self]

/-- A command is below medium risk when it begins harmlessly and no pattern is found in it. -/
theorem classifyCommandRisk_lt_iff {command : String} :
    (classifyCommandRisk command).value < RiskLevel.medium.value ↔
      beginsHarmlessly command = true ∧ highRisk command = false := by
  by_cases hblank : normalizeCommand command = ""
  · have hrisk := highRisk_of_blank hblank
    simp [classifyCommandRisk, beginsHarmlessly, hblank, hrisk, RiskLevel.value]
  unfold classifyCommandRisk beginsHarmlessly
  simp only [hblank, if_false, beq_eq_false_iff_ne.2 hblank, Bool.false_or]
  -- What the three tests of the beginning say.
  generalize hmedium : mediumRiskCommands.contains (firstWord (normalizeCommand command)) = isMedium
  generalize hread : readOnlyCommands.contains (firstWord (normalizeCommand command)) = isRead
  generalize startsWith (normalizeCommand command) "sim upgrade " = isSim
  rw [List.contains_eq_mem] at hmedium hread
  cases highRisk command <;> cases isMedium <;> cases isRead <;> cases isSim <;>
    simp_all [RiskLevel.value]

/-! ## Lines -/

/-- What the classification of lines rests on: `casefold` works character by character and leaves a
space, and a space is no letter or digit. -/
class LawfulFold : Prop where
  casefold_append (s t : String) : PyLib.casefold (s ++ t) = PyLib.casefold s ++ PyLib.casefold t
  casefold_space : PyLib.casefold " " = " "
  isAlnum_space : PyText.isAlnum ' ' = false

omit [PyText] in
/-- The words decide what a command is normalized to. -/
theorem normalizeCommand_eq (command : String) :
    normalizeCommand command = PyLib.casefold (" ".intercalate (words command)) := by
  unfold normalizeCommand
  rw [words_strip]

omit [PyLib] in
/-- The patterns have no `$`, and their boundaries are those of `\w`. -/
theorem highRiskPatterns_within {r : Regex} (hr : r ∈ highRiskPatterns) :
    r.Within isWordChar := by
  have hbetween {rs : List Regex} (h : ∀ r ∈ rs, r.Within isWordChar) :
      (betweenBoundaries rs).Within isWordChar := ⟨rfl, Regex.within_all h, rfl⟩
  have hexact (s : String) : (Regex.exact s).Within isWordChar := Regex.within_exact s
  have hspaces : (Regex.plus true (Regex.chars isSpace)).Within isWordChar := ⟨trivial, trivial⟩
  have hstar : (Regex.star true (Regex.chars isSpace)).Within isWordChar := trivial
  simp only [highRiskPatterns, List.mem_cons, List.not_mem_nil, or_false] at hr
  rcases hr with rfl | rfl | rfl | rfl | rfl | rfl | rfl | rfl | rfl | rfl <;>
    exact hbetween (by simp [hexact, hspaces, hstar])

variable [LawfulFold]

/-- The empty text is left as it is. -/
theorem casefold_empty : PyLib.casefold "" = "" := by
  have h := congrArg String.length (LawfulFold.casefold_append "" "")
  rw [String.append_empty, String.length_append] at h
  have hlength : (PyLib.casefold "").length = 0 := by omega
  exact String.length_eq_zero_iff.1 hlength

/-- What stands in front of further words. -/
theorem casefold_front (front rest : List String) (hrest : rest ≠ []) :
    ∃ before : List Char, before.getLast?.any isWordChar = false ∧
      (PyLib.casefold (" ".intercalate (front ++ rest))).toList =
        before ++ (PyLib.casefold (" ".intercalate rest)).toList := by
  by_cases hfront : front = []
  · exact ⟨[], rfl, by rw [hfront, List.nil_append, List.nil_append]⟩
  · refine ⟨(PyLib.casefold (" ".intercalate front)).toList ++ [' '], ?_, ?_⟩
    · rw [List.getLast?_concat]
      show (PyText.isAlnum ' ' || ' ' == '_') = false
      rw [LawfulFold.isAlnum_space]
      rfl
    · rw [String.intercalate_append_of_ne_nil hfront hrest, LawfulFold.casefold_append,
        LawfulFold.casefold_append, LawfulFold.casefold_space, String.toList_append,
        String.toList_append]
      rfl

/-- What stands behind other words. -/
theorem casefold_back (front rest : List String) (hfront : front ≠ []) :
    ∃ after : List Char, after.head?.any isWordChar = false ∧
      (PyLib.casefold (" ".intercalate (front ++ rest))).toList =
        (PyLib.casefold (" ".intercalate front)).toList ++ after := by
  by_cases hrest : rest = []
  · exact ⟨[], rfl, by rw [hrest, List.append_nil, List.append_nil]⟩
  · refine ⟨' ' :: (PyLib.casefold (" ".intercalate rest)).toList, ?_, ?_⟩
    · show (PyText.isAlnum ' ' || ' ' == '_') = false
      rw [LawfulFold.isAlnum_space]
      rfl
    · rw [String.intercalate_append_of_ne_nil hfront hrest, LawfulFold.casefold_append,
        LawfulFold.casefold_append, LawfulFold.casefold_space, String.toList_append,
        String.toList_append, List.append_assoc]
      rfl

/-- A pattern that is found in a run of a text's words is found in the text. -/
theorem highRisk_of_words {part text : String} {front back : List String}
    (hwords : words text = front ++ words part ++ back) (h : highRisk part = true) :
    highRisk text = true := by
  have hpart : words part ≠ [] := by
    intro hnil
    have hblank : normalizeCommand part = "" := by
      rw [normalizeCommand_eq, hnil, String.intercalate_nil, casefold_empty]
    rw [highRisk_of_blank hblank] at h
    cases h
  obtain ⟨before, hbefore, hfront⟩ := casefold_front front (words part) hpart
  have hne : front ++ words part ≠ [] := by simp [hpart]
  obtain ⟨after, hafter, hback⟩ := casefold_back (front ++ words part) back hne
  have htext : (normalizeCommand text).toList =
      before ++ (normalizeCommand part).toList ++ after := by
    rw [normalizeCommand_eq, normalizeCommand_eq, hwords, hback, hfront]
  obtain ⟨r, hr, hfound⟩ := List.any_eq_true.1 h
  have hwithin := highRiskPatterns_within hr
  exact List.any_eq_true.2
    ⟨r, hr, Regex.search_isSome_of_infix hwithin hbefore hafter htext hfound⟩

/-- A command reads the words of a line, in a line of its own. -/
def hasLine (text line : String) : Prop := ∃ l ∈ splitlines text, words l = words line

/-- A pattern that is found in a line is found in the text. -/
theorem highRisk_of_line {text line : String} (hline : hasLine text line)
    (h : highRisk line = true) : highRisk text = true := by
  obtain ⟨l, hl, hwords⟩ := hline
  obtain ⟨front, back, hsplit⟩ := List.append_of_mem hl
  have htext : words text = front.flatMap words ++ words line ++ back.flatMap words := by
    rw [← words_splitlines, hsplit, List.flatMap_append, List.flatMap_cons, hwords,
      List.append_assoc]
  exact highRisk_of_words htext h

end

end DeviceShell.Tasking
