import DeviceShell.Lib.Fallible
import DeviceShell.Transfers.Steps

/-!
# Command lines carry only their arguments

Whatever the paths are, a line of the file client is split into its verb and its two paths, and the
line of the shell into its arguments. What the plans write is a single line without control
characters exactly when the host and both paths are (`transferLines_iff`): the validator of the
shared directory admits control characters, and that of a storage the ones above the space.
-/

namespace DeviceShell.Transfers

/-! ## Single lines -/

/-- A control character. -/
def isControl (c : Char) : Bool := decide (c.toNat < 32) || (127 ≤ c.toNat && decide (c.toNat < 160))

/-- A character that goes on with a line. -/
def inLine (c : Char) : Bool := !isControl c && !isLineBreak c

/-- A single line without control characters. -/
def OneLine (s : String) : Prop := ∀ c ∈ s.toList, inLine c = true

instance : DecidablePred OneLine := fun s => inferInstanceAs (Decidable (∀ c ∈ s.toList, _))

theorem oneLine_append (s t : String) : OneLine (s ++ t) ↔ OneLine s ∧ OneLine t := by
  unfold OneLine
  rw [String.toList_append]
  exact List.forall_mem_append

theorem oneLine_ofList (l : List Char) :
    OneLine (String.ofList l) ↔ ∀ c ∈ l, inLine c = true := by
  unfold OneLine
  rw [String.toList_ofList]

/-- Characters that are written in other ways are in a line if they are. -/
theorem inLine_flatMap {write : Char → List Char}
    (h : ∀ c, (∀ d ∈ write c, inLine d = true) ↔ inLine c = true) (l : List Char) :
    (∀ d ∈ l.flatMap write, inLine d = true) ↔ ∀ c ∈ l, inLine c = true := by
  constructor
  · intro hall c hc
    exact (h c).mp fun d hd => hall d (List.mem_flatMap.mpr ⟨c, hc, hd⟩)
  · intro hall d hd
    obtain ⟨c, hc, hd⟩ := List.mem_flatMap.mp hd
    exact (h c).mpr (hall c hc) d hd

/-- A character is replaced by others of a line. -/
theorem inLine_replaceWith (c : Char) (text : List Char) (hc : inLine c = true)
    (htext : ∀ d ∈ text, inLine d = true) (l : List Char) :
    (∀ d ∈ replaceWith c text l, inLine d = true) ↔ ∀ d ∈ l, inLine d = true := by
  refine inLine_flatMap (fun d => ?_) l
  split_ifs with hd
  · exact iff_of_true htext (hd ▸ hc)
  · simp

theorem oneLine_quoteTransferArgument (value : String) :
    OneLine (quoteTransferArgument value) ↔ OneLine value := by
  unfold quoteTransferArgument
  split
  · have hquoted := inLine_replaceWith '"' ['\\', '"'] rfl
      (by simp [inLine, isControl, isLineBreak])
      (replaceWith '\\' ['\\', '\\'] value.toList)
    have hescaped := inLine_replaceWith '\\' ['\\', '\\'] rfl
      (by simp [inLine, isControl, isLineBreak])
      value.toList
    rw [oneLine_ofList, List.forall_mem_cons, List.forall_mem_append, hquoted, hescaped]
    simp [OneLine, inLine, isControl, isLineBreak]
  · exact Iff.rfl

theorem oneLine_shlexQuote (s : String) : OneLine (shlexQuote s) ↔ OneLine s := by
  unfold shlexQuote
  split
  · rename_i hs
    subst hs
    exact iff_of_true (by simp [OneLine, inLine, isControl, isLineBreak]) (by simp [OneLine])
  · split
    · exact Iff.rfl
    · have hescaped := inLine_replaceWith '\'' ['\'', '"', '\'', '"', '\''] rfl
        (by simp [inLine, isControl, isLineBreak]) s.toList
      rw [oneLine_ofList, List.forall_mem_cons, List.forall_mem_append, hescaped]
      simp [OneLine, inLine, isControl, isLineBreak]

theorem oneLine_repr (n : ℕ) : OneLine n.repr := by
  intro c hc
  rw [Nat.toList_repr] at hc
  have hdigit : c.isDigit = true := Nat.isDigit_of_mem_toDigits (by decide) (by decide) hc
  have hrange : 48 ≤ c.toNat ∧ c.toNat ≤ 57 := Char.isDigit_iff_toNat.mp hdigit
  unfold inLine isControl isLineBreak
  simp only [Bool.and_eq_true, Bool.not_eq_true', Bool.or_eq_false_iff, Bool.and_eq_false_iff,
    decide_eq_false_iff_not, beq_eq_false_iff_ne]
  omega

/-! ## Splitting -/

/-- A character as it is written in double quotes. -/
def writeEscaped (c : Char) : List Char :=
  if c = '\\' ∨ c = '"' then ['\\', c] else [c]

/-- What both replacements come to. -/
theorem replaceWith_replaceWith (l : List Char) :
    replaceWith '"' ['\\', '"'] (replaceWith '\\' ['\\', '\\'] l) = l.flatMap writeEscaped := by
  unfold replaceWith
  rw [List.flatMap_assoc]
  refine List.flatMap_congr fun c _ => ?_
  unfold writeEscaped
  by_cases hbackslash : c = '\\'
  · subst hbackslash
    rfl
  · by_cases hquote : c = '"'
    · subst hquote
      rfl
    · simp [hbackslash, hquote]

/-- A character as it is written in double quotes spells itself. -/
theorem spellsIn_writeEscaped (c : Char) : fileClient.SpellsIn '"' (writeEscaped c) [c] := by
  unfold writeEscaped
  split
  · exact Quoting.spellsIn_escaped (by decide) rfl c
  · rename_i hplain
    rw [not_or] at hplain
    exact Quoting.spellsIn_self hplain.2 (.inl hplain.1)

/-- An argument of the file client spells itself. -/
theorem spells_quoteTransferArgument {value : String} (hne : value ≠ "") :
    fileClient.Spells (quoteTransferArgument value).toList value.toList := by
  unfold quoteTransferArgument
  split
  · rw [String.toList_ofList, replaceWith_replaceWith]
    have hinside := Quoting.spellsIn_flatMap spellsIn_writeEscaped value.toList
    exact Quoting.spells_quoted (by decide) rfl hinside
  · rename_i hplain
    refine Quoting.spells_plain (by simpa using hne) fun c hc => ?_
    simp only [List.any_eq_true, not_exists, not_and, Bool.not_eq_true, Bool.or_eq_false_iff] at hplain
    obtain ⟨⟨hspace, hquote⟩, -⟩ := hplain c hc
    exact ⟨hspace, hquote, rfl⟩

/-- A character as `shlex.quote` writes it in single quotes spells itself. -/
theorem spellsIn_shlexQuote (c : Char) :
    shell.SpellsIn '\'' (if c = '\'' then ['\'', '"', '\'', '"', '\''] else [c]) [c] := by
  split
  · rename_i hc
    subst hc
    exact fun _ _ => rfl
  · rename_i hc
    exact Quoting.spellsIn_self hc (.inr rfl)

/-- An argument of the shell spells itself. -/
theorem spells_shlexQuote (s : String) : shell.Spells (shlexQuote s).toList s.toList := by
  unfold shlexQuote
  split
  · rename_i hs
    subst hs
    exact fun _ _ => rfl
  · rename_i hne
    split
    · rename_i hsafe
      refine Quoting.spells_plain (by simpa using hne) fun c hc => ?_
      have hc : isShellSafe c = true := List.all_eq_true.mp hsafe c hc
      -- Neither the space nor a quote is safe.
      refine ⟨?_, ?_, hc⟩
      · exact beq_false_of_ne fun heq => by simp [heq, isShellSafe] at hc
      · refine Bool.or_eq_false_iff.mpr ?_
        exact ⟨beq_false_of_ne fun heq => by simp [heq, isShellSafe] at hc,
          beq_false_of_ne fun heq => by simp [heq, isShellSafe] at hc⟩
    · rw [String.toList_ofList]
      have hinside := Quoting.spellsIn_flatMap spellsIn_shlexQuote s.toList
      exact Quoting.spells_quoted (by decide) rfl hinside

/-! ## Accepted paths -/

theorem splitAtChars_ne_nil (p : Char → Bool) (part l : List Char) : splitAtChars p part l ≠ [] := by
  induction l generalizing part with
  | nil => exact List.cons_ne_nil _ _
  | cons c rest ih =>
    unfold splitAtChars
    split_ifs
    · exact List.cons_ne_nil _ _
    · exact ih (c :: part)

/-- Parts that are joined again. -/
theorem join_splitAtChars (part l : List Char) :
    "/".intercalate (splitAtChars (· == '/') part l) = String.ofList (part.reverse ++ l) := by
  induction l generalizing part with
  | nil => simp [splitAtChars]
  | cons c rest ih =>
    unfold splitAtChars
    split_ifs with hc
    · have hslash : c = '/' := by simpa using hc
      rw [String.intercalate_cons_of_ne_nil (splitAtChars_ne_nil _ _ _), ih, hslash]
      apply String.toList_injective
      simp
    · rw [ih]
      simp

/-- Joined parts are in a line if each of them is. -/
theorem oneLine_join {sep : String} (hsep : OneLine sep) (parts : List String) :
    OneLine (sep.intercalate parts) ↔ ∀ part ∈ parts, OneLine part := by
  induction parts with
  | nil => simp [OneLine]
  | cons first rest ih =>
    by_cases hrest : rest = []
    · simp [hrest]
    · rw [String.intercalate_cons_of_ne_nil hrest, List.forall_mem_cons]
      simp [oneLine_append, hsep, ih]

theorem oneLine_slash : OneLine "/" := by simp [OneLine, inLine, isControl, isLineBreak]

/-- A path is in a line if its components are. -/
theorem oneLine_components (s : String) : (∀ part ∈ posixComponents s, OneLine part) ↔ OneLine s := by
  have hempty : OneLine "" := by simp [OneLine]
  have hdot : OneLine "." := by simp [OneLine, inLine, isControl, isLineBreak]
  have hjoin : "/".intercalate (pathParts s) = s := by
    unfold pathParts
    simp [join_splitAtChars]
  calc (∀ part ∈ posixComponents s, OneLine part)
    _ ↔ ∀ part ∈ pathParts s, OneLine part := by
      constructor
      · intro h part hpart
        by_cases hkept : part ≠ "" ∧ part ≠ "."
        · exact h part (List.mem_filter.mpr ⟨hpart, by simpa using hkept⟩)
        · -- What is dropped is empty or a dot.
          rcases not_and_or.mp hkept with hkept | hkept
          · exact not_not.mp hkept ▸ hempty
          · exact not_not.mp hkept ▸ hdot
      · exact fun h part hpart => h part (List.mem_of_mem_filter hpart)
    _ ↔ OneLine s := by rw [← oneLine_join oneLine_slash, hjoin]

theorem oneLine_asPosix (s : String) : OneLine (asPosix s) ↔ OneLine s := by
  have hroot : OneLine (posixRoot s) := by
    unfold posixRoot
    split_ifs <;> simp [OneLine, inLine, isControl, isLineBreak]
  have htext : OneLine (posixRoot s ++ "/".intercalate (posixComponents s)) ↔ OneLine s := by
    rw [oneLine_append, oneLine_join oneLine_slash, oneLine_components]
    exact and_iff_right hroot
  have hdot : OneLine "." := by simp [OneLine, inLine, isControl, isLineBreak]
  unfold asPosix
  dsimp only
  split
  · rename_i hnone
    rw [hnone] at htext
    have hempty : OneLine "" := by simp [OneLine]
    exact iff_of_true hdot (htext.mp hempty)
  · exact htext

theorem asPosix_ne (s : String) : asPosix s ≠ "" := by
  unfold asPosix
  dsimp only
  split
  · decide
  · assumption

theorem oneLine_replaceChar (s : String) : OneLine (replaceChar '\\' '/' s) ↔ OneLine s := by
  unfold replaceChar
  rw [oneLine_ofList]
  have hslash : inLine '/' = true := rfl
  have hbackslash : inLine '\\' = true := rfl
  unfold OneLine
  rw [List.forall_mem_map]
  refine forall₂_congr fun c _ => ?_
  split_ifs with hc
  · exact iff_of_true hslash (hc ▸ hbackslash)
  · exact Iff.rfl

/-- A path of the shared directory is accepted as its components. -/
theorem validateRelativePath_eq {value label path : String}
    (h : validateRelativePath value label = .ok path) : path = replaceChar '\\' '/' (strip value) := by
  unfold validateRelativePath at h
  dsimp only at h
  split at h
  · cases h
  · split at h
    · cases h
    · split at h
      · cases h
      · exact (Except.ok.inj h).symm

/-- A path of a storage is accepted as it stands. -/
theorem validateDestinationPath_eq {value path : String}
    (h : validateDestinationPath value = .ok path) : path = strip value ∧ path ≠ "" := by
  unfold validateDestinationPath at h
  dsimp only at h
  split at h
  · cases h
  · split at h
    · cases h
    · split at h
      · cases h
      · rename_i hnone _
        obtain rfl := Except.ok.inj h
        exact ⟨rfl, (not_or.mp hnone).1⟩

/-- An absolute path without special parts is written as it stands. -/
theorem asPosix_of_absolute {s : String} (hslash : startsWith s "/" = true)
    (hparts : ((pathParts s).drop 1).any isSpecialPart = false) : asPosix s = s := by
  obtain ⟨t, ht⟩ : ∃ t, s.toList = '/' :: t := by
    obtain ⟨t, ht⟩ := List.isPrefixOf_iff_prefix.mp hslash
    exact ⟨t, ht.symm⟩
  have hs : s = String.ofList ('/' :: t) := by rw [← ht, String.ofList_toList]
  have hsplit : pathParts s = "" :: splitAtChars (· == '/') [] t := by
    unfold pathParts
    rw [ht]
    rfl
  rw [hsplit, List.drop_one, List.tail_cons, List.any_eq_false] at hparts
  have hcomponents : posixComponents s = splitAtChars (· == '/') [] t := by
    unfold posixComponents
    rw [hsplit, List.filter_cons_of_neg (by simp), List.filter_eq_self]
    intro part hpart
    have hordinary := hparts part hpart
    unfold isSpecialPart at hordinary
    simp only [Bool.or_eq_true, beq_iff_eq, not_or] at hordinary
    simpa using hordinary.1
  have hroot : posixRoot s = "/" := by
    have hone : startsWith s "//" = false := by
      by_contra htwo
      -- A second slash would leave an empty part behind the first one.
      obtain ⟨u, hu⟩ := List.isPrefixOf_iff_prefix.mp (Bool.not_eq_false _ ▸ htwo)
      have htail : t = '/' :: u := by
        rw [ht] at hu
        exact (List.cons.inj hu).2.symm
      have hempty : "" ∈ splitAtChars (· == '/') [] t := by
        rw [htail]
        exact List.mem_cons_self
      exact hparts "" hempty rfl
    unfold posixRoot
    simp [hone, hslash]
  have htext : posixRoot s ++ "/".intercalate (posixComponents s) = s := by
    rw [hroot, hcomponents, join_splitAtChars, hs]
    apply String.toList_injective
    simp
  unfold asPosix
  dsimp only
  rw [htext, if_neg]
  intro hempty
  rw [hempty] at ht
  cases ht

/-- A path of Linux is accepted as it stands. -/
theorem validateLinuxFilePath_eq {value path : String}
    (h : validateLinuxFilePath value = .ok path) : path = strip value ∧ path ≠ "" := by
  unfold validateLinuxFilePath at h
  dsimp only at h
  split at h
  · cases h
  · rename_i hslash
    split at h
    · cases h
    · split at h
      · cases h
      · rename_i hparts
        obtain rfl := Except.ok.inj h
        have habsolute : startsWith (strip value) "/" = true :=
          Bool.not_eq_false _ ▸ (not_or.mp hslash).1
        exact ⟨asPosix_of_absolute habsolute (Bool.not_eq_true _ ▸ hparts), asPosix_ne _⟩

/-- A path of a device is accepted as it stands. -/
theorem validateTransferDevicePath_eq {value path : String} {environment : TerminalEnvironment}
    (h : validateTransferDevicePath value environment = .ok path) :
    path = strip value ∧ path ≠ "" := by
  unfold validateTransferDevicePath at h
  split at h
  · exact validateDestinationPath_eq h
  · exact validateLinuxFilePath_eq h
  · split at h
    · exact validateDestinationPath_eq h
    · split at h
      · rename_i path' hpath
        obtain rfl := Except.ok.inj h
        exact validateDestinationPath_eq hpath
      · exact validateLinuxFilePath_eq h

section Requests

variable [PyLib]

/-- The path of a device that a transfer keeps. -/
theorem devicePath_eq {value sessionKind : String} {requested : TerminalEnvironment}
    {accepted : String × TerminalEnvironment}
    (h : devicePath value sessionKind requested = .ok accepted) :
    accepted.1 = strip value ∧ accepted.1 ≠ "" := by
  obtain ⟨first, hfirst, h⟩ := Except.bind_eq_ok.mp h
  obtain ⟨second, hsecond, h⟩ := Except.bind_eq_ok.mp h
  cases h
  obtain ⟨rfl, -⟩ := validateTransferDevicePath_eq hfirst
  obtain ⟨rfl, hne⟩ := validateTransferDevicePath_eq hsecond
  exact ⟨strip_strip value, hne⟩

/-- The paths that an upload keeps. -/
theorem startUpload_paths {files : SharedFiles} {sessionKind : String} {request : TransferRequest}
    {data : TransferData} (h : startUpload files sessionKind request = .ok data) :
    data.sourcePath = asPosix (replaceChar '\\' '/' (strip request.sourcePath)) ∧
      (data.commandMode = .vrp →
        data.destinationPath = strip request.destinationPath ∧ data.destinationPath ≠ "") := by
  obtain ⟨info, hinfo, h⟩ := Except.bind_eq_ok.mp h
  obtain ⟨commandMode, -, h⟩ := Except.bind_eq_ok.mp h
  obtain ⟨requested, -, h⟩ := Except.bind_eq_ok.mp h
  obtain ⟨destination, hdestination, h⟩ := Except.bind_eq_ok.mp h
  cases h
  obtain ⟨relative, hrelative, hinfo⟩ := Except.bind_eq_ok.mp hinfo
  obtain ⟨size, -, hinfo⟩ := Except.bind_eq_ok.mp hinfo
  cases hinfo
  refine ⟨by rw [validateRelativePath_eq hrelative], fun hmode => ?_⟩
  dsimp only at hmode
  rw [hmode] at hdestination
  exact devicePath_eq hdestination

/-- The paths that a download keeps. -/
theorem startDownload_paths {sessionKind : String} {request : TransferRequest}
    {data : TransferData} (h : startDownload sessionKind request = .ok data) :
    (data.sourcePath = strip request.sourcePath ∧ data.sourcePath ≠ "") ∧
      data.destinationPath = asPosix (replaceChar '\\' '/' (strip request.destinationPath)) := by
  obtain ⟨commandMode, -, h⟩ := Except.bind_eq_ok.mp h
  by_cases hmode : commandMode = .ftpget
  · rw [if_pos hmode] at h
    cases h
  · rw [if_neg hmode] at h
    obtain ⟨requested, -, h⟩ := Except.bind_eq_ok.mp h
    obtain ⟨source, hsource, h⟩ := Except.bind_eq_ok.mp h
    obtain ⟨relative, hrelative, h⟩ := Except.bind_eq_ok.mp h
    cases h
    exact ⟨devicePath_eq hsource, by rw [validateRelativePath_eq hrelative]⟩

end Requests

/-! ## Plans -/

/-- The texts that the steps of a plan write. -/
def sentTexts (steps : List TransferStep) : List String := steps.flatMap TransferStep.sent

/-- The line of the file client: the last text before it is left. -/
def clientLine (steps : List TransferStep) : Option String := (sentTexts steps).dropLast.getLast?

/-- A plan writes single lines, and the line of the file client is a verb and both paths. -/
structure CarriesOnly (verb : String) (data : TransferData) (steps : List TransferStep) : Prop where
  oneLine : ∀ text ∈ sentTexts steps, OneLine text
  words : (clientLine steps).bind fileClient.words =
    some [verb, data.sourcePath, data.destinationPath]

/-- The texts around the host. -/
theorem oneLine_around : OneLine " " ∧ OneLine "@" ∧ OneLine "sftp -P " ∧ OneLine "" := by
  simp [OneLine, inLine, isControl, isLineBreak]

theorem oneLine_protocol (protocol : TransferProtocol) : OneLine protocol.text := by
  cases protocol <;> simp [TransferProtocol.text, OneLine, inLine, isControl, isLineBreak]

/-- What the login and the change into binary mode write is in single lines. -/
theorem oneLine_loginSteps (protocol : TransferProtocol) (responses : List PromptResponse)
    (timeoutSeconds : ℕ) (usernameSecretRef passwordSecretRef : String) :
    ∀ text ∈ sentTexts (loginSteps protocol responses timeoutSeconds {} usernameSecretRef
      passwordSecretRef ++ binarySteps protocol {}), OneLine text := by
  obtain ⟨-, -, -, hempty⟩ := oneLine_around
  have hbinary : OneLine "binary" := by simp [OneLine, inLine, isControl, isLineBreak]
  unfold loginSteps binarySteps
  split_ifs <;> simp [sentTexts, TransferStep.sent, hempty, hbinary]

/-- What the first step writes is in single lines if the host is. -/
theorem oneLine_connectStep {protocol : TransferProtocol} {endpoint : TransferEndpoint}
    {environment : TerminalEnvironment} {step : TransferStep}
    (h : connectStep protocol endpoint environment {} = .ok step) :
    (∀ text ∈ step.sent, OneLine text) ↔ OneLine endpoint.host := by
  have hport := oneLine_repr endpoint.port
  have hprotocol := oneLine_protocol protocol
  obtain ⟨hspace, hat, hsftp, -⟩ := oneLine_around
  unfold connectStep at h
  split at h
  · split at h
    · cases h
    · cases h
      simp [TransferStep.sent, oneLine_append, oneLine_shlexQuote, hport, hspace, hat, hsftp]
  · cases h
    simp [TransferStep.sent, oneLine_append, hport, hprotocol, hspace]

/-- What is written to connect is in single lines if the host is. -/
theorem oneLine_connectSteps {protocol : TransferProtocol} {endpoint : TransferEndpoint}
    {environment : TerminalEnvironment} {usernameSecretRef passwordSecretRef : String}
    {steps : List TransferStep}
    (h : connectSteps protocol endpoint environment {} usernameSecretRef passwordSecretRef =
      .ok steps) :
    (∀ text ∈ sentTexts steps, OneLine text) ↔ OneLine endpoint.host := by
  obtain ⟨connect, hconnect, h⟩ := Except.bind_eq_ok.mp h
  cases h
  have hlogin := oneLine_loginSteps protocol (loginResponses endpoint.usernameSecretRef
    endpoint.passwordSecretRef {}) 45 usernameSecretRef passwordSecretRef
  unfold sentTexts at hlogin ⊢
  rw [List.flatMap_cons, List.forall_mem_append, oneLine_connectStep hconnect]
  exact and_iff_left hlogin

/-- A line of the file client with a verb and both paths. -/
theorem words_clientLine {verb source destination : String} (hverb : fileClient.Spells verb.toList
    verb.toList) (hsource : source ≠ "") (hdestination : destination ≠ "") :
    fileClient.words (verb ++ " " ++ quoteTransferArgument source ++ " " ++
      quoteTransferArgument destination) = some [verb, source, destination] := by
  have hsep : fileClient.separates ' ' = true := rfl
  have hwords := Quoting.words_join hsep (.cons hverb (.cons (spells_quoteTransferArgument hsource)
    (.cons (spells_quoteTransferArgument hdestination) .nil)))
  have hspace : String.singleton ' ' = " " := rfl
  simpa [hspace, String.append_assoc] using hwords

/-- A plan that connects and then transfers with a line writes single lines if the host and both
paths are. -/
theorem carriesOnly_iff {verb line label waiting : String} {data : TransferData}
    {protocol : TransferProtocol} {connect : List TransferStep} {responses : List PromptResponse}
    {size : ℕ} {host : String} (hconnect : (∀ text ∈ sentTexts connect, OneLine text) ↔ OneLine host)
    (hverb : OneLine verb)
    (hline : line = verb ++ " " ++ quoteTransferArgument data.sourcePath ++ " " ++
      quoteTransferArgument data.destinationPath)
    (hwords : fileClient.words line = some [verb, data.sourcePath, data.destinationPath]) :
    CarriesOnly verb data (connect ++
      transferSteps protocol line label waiting responses size {}) ↔
      OneLine host ∧ OneLine data.sourcePath ∧ OneLine data.destinationPath := by
  have hsent : sentTexts (connect ++ transferSteps protocol line label waiting responses size {}) =
      sentTexts connect ++ [line, "quit"] := by
    unfold sentTexts
    rw [List.flatMap_append]
    rfl
  have hclient : clientLine (connect ++
      transferSteps protocol line label waiting responses size {}) = some line := by
    unfold clientLine
    rw [hsent]
    simp
  have hquit : OneLine "quit" := by simp [OneLine, inLine, isControl, isLineBreak]
  obtain ⟨hspace, -⟩ := oneLine_around
  have htexts : (∀ text ∈ sentTexts (connect ++
      transferSteps protocol line label waiting responses size {}), OneLine text) ↔
      OneLine host ∧ OneLine data.sourcePath ∧ OneLine data.destinationPath := by
    rw [hsent, List.forall_mem_append, hconnect, hline]
    simp [oneLine_append, oneLine_quoteTransferArgument, hverb, hspace, hquit]
  constructor
  · intro h
    exact htexts.mp h.oneLine
  · intro h
    exact ⟨htexts.mpr h, by rw [hclient]; exact hwords⟩

theorem oneLine_verbs : OneLine "get" ∧ OneLine "put" := by
  simp [OneLine, inLine, isControl, isLineBreak]

/-- Both verbs spell themselves. -/
theorem spells_verbs : fileClient.Spells "get".toList "get".toList ∧
    fileClient.Spells "put".toList "put".toList :=
  ⟨fun _ _ => rfl, fun _ _ => rfl⟩

/-- The command of a shell is split into its arguments, and is a single line if they are. -/
theorem buildFtpgetCommand_spec {username password host sourcePath command : String}
    (h : buildFtpgetCommand username password host sourcePath = .ok command) :
    shell.words command = some ["ftpget", "-u", username, "-p", password, strip host,
        asPosix (replaceChar '\\' '/' (strip sourcePath))] ∧
      (OneLine command ↔ OneLine username ∧ OneLine password ∧ OneLine (strip host) ∧
        OneLine (strip sourcePath)) := by
  unfold buildFtpgetCommand at h
  dsimp only at h
  split at h
  · cases h
  · obtain ⟨source, hsource, h⟩ := Except.bind_eq_ok.mp h
    obtain rfl := Except.ok.inj h
    rw [validateRelativePath_eq hsource]
    have hsep : shell.separates ' ' = true := rfl
    have hftpget : shell.Spells "ftpget".toList "ftpget".toList := fun _ _ => rfl
    have husername : shell.Spells "-u".toList "-u".toList := fun _ _ => rfl
    have hpassword : shell.Spells "-p".toList "-p".toList := fun _ _ => rfl
    constructor
    · exact Quoting.words_join hsep (.cons hftpget (.cons husername
        (.cons (spells_shlexQuote _) (.cons hpassword (.cons (spells_shlexQuote _)
          (.cons (spells_shlexQuote _) (.cons (spells_shlexQuote _) .nil)))))))
    · have hspace := oneLine_around.1
      have hwords : OneLine "ftpget" ∧ OneLine "-u" ∧ OneLine "-p" := by
        simp [OneLine, inLine, isControl, isLineBreak]
      rw [oneLine_join hspace]
      simp [oneLine_shlexQuote, oneLine_asPosix, oneLine_replaceChar, hwords]

/-- What the plans of accepted transfers write. A line of the file client is its verb and both
paths, and everything that is written is a single line, exactly if the host and both paths are; the
command of a shell is split into its arguments, and is a single line exactly if they are. -/
theorem transferLines_iff [PyLib] :
    (∀ files sessionKind request data endpoint steps timeout,
      startUpload files sessionKind request = .ok data → data.commandMode = .vrp →
      buildManagedTransferSteps endpoint data {} = .ok (steps, timeout) →
      (CarriesOnly "get" data steps ↔ OneLine endpoint.host ∧
        OneLine (strip request.sourcePath) ∧ OneLine (strip request.destinationPath))) ∧
    (∀ sessionKind request data endpoint steps timeout,
      startDownload sessionKind request = .ok data →
      buildManagedTransferDownloadSteps endpoint data {} = .ok (steps, timeout) →
      (CarriesOnly "put" data steps ↔ OneLine endpoint.host ∧
        OneLine (strip request.sourcePath) ∧ OneLine (strip request.destinationPath))) ∧
    (∀ username password host sourcePath command,
      buildFtpgetCommand username password host sourcePath = .ok command →
      (shell.words command = some ["ftpget", "-u", username, "-p", password, strip host,
          asPosix (replaceChar '\\' '/' (strip sourcePath))] ∧ OneLine command ↔
        OneLine username ∧ OneLine password ∧ OneLine (strip host) ∧
          OneLine (strip sourcePath))) := by
  obtain ⟨hget, hput⟩ := oneLine_verbs
  obtain ⟨sget, sput⟩ := spells_verbs
  refine ⟨fun files sessionKind request data endpoint steps timeout hstart hmode hbuild => ?_,
    fun sessionKind request data endpoint steps timeout hstart hbuild => ?_,
    fun username password host sourcePath command hbuild => ?_⟩
  · obtain ⟨hsource, hdestination⟩ := startUpload_paths hstart
    obtain ⟨hdestination, hne⟩ := hdestination hmode
    obtain ⟨protocol, -, hbuild⟩ := Except.bind_eq_ok.mp hbuild
    obtain ⟨connect, hconnect, hbuild⟩ := Except.bind_eq_ok.mp hbuild
    cases hbuild
    have hwords := words_clientLine sget (hsource ▸ asPosix_ne _) hne
    refine (carriesOnly_iff (oneLine_connectSteps hconnect) hget rfl hwords).trans ?_
    rw [hsource, hdestination, oneLine_asPosix, oneLine_replaceChar]
  · obtain ⟨⟨hsource, hne⟩, hdestination⟩ := startDownload_paths hstart
    obtain ⟨protocol, -, hbuild⟩ := Except.bind_eq_ok.mp hbuild
    obtain ⟨connect, hconnect, hbuild⟩ := Except.bind_eq_ok.mp hbuild
    cases hbuild
    have hwords := words_clientLine sput hne (hdestination ▸ asPosix_ne _)
    refine (carriesOnly_iff (oneLine_connectSteps hconnect) hput rfl hwords).trans ?_
    rw [hsource, hdestination, oneLine_asPosix, oneLine_replaceChar]
  · obtain ⟨hwords, hline⟩ := buildFtpgetCommand_spec hbuild
    rw [hline]
    exact and_iff_right hwords

/-- A download to a path of the shared directory with a line feed in it. -/
def brokenDownload : TransferRequest where
  sourcePath := "flash:/a.cc"
  destinationPath := "a\nreboot"

/-- The download is accepted, and its plan writes a line with a line break. -/
theorem not_carriesOnly_brokenDownload :
    letI := PyLib.decimal
    ∃ data steps timeout, startDownload "telnet" brokenDownload = .ok data ∧
      buildManagedTransferDownloadSteps ⟨"sftp", "192.0.2.1", 22, "u", "p", ""⟩ data {} =
        .ok (steps, timeout) ∧
      ¬ CarriesOnly "put" data steps := by
  have hstart : @startDownload PyLib.decimal "telnet" brokenDownload =
      .ok ⟨"flash:/a.cc", 0, "a\nreboot", false, .auto, .vrp, .vrp⟩ := by decide +kernel
  refine ⟨_, _, _, hstart, rfl, fun h => ?_⟩
  have hline := h.oneLine "put flash:/a.cc \"a\nreboot\"" (by decide +kernel)
  exact absurd (hline '\n' (by decide +kernel)) (by decide +kernel)

end DeviceShell.Transfers
