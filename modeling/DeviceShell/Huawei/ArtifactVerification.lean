import DeviceShell.Huawei.ParserTotality

/-!
# The verification of an artifact

`_verify_artifact` of the Huawei adapter. For a package it looks for the name in the whole output of
the listing, while `dir_contains_package` looks at the files that the listing is read as. A name in
the echo of a command, in an error line or in a longer name is proof enough for the first.
-/

namespace DeviceShell.Huawei

variable [PyLib] [PyText]

/-- The name that the verification of a package looks for. -/
def verifiedName (expected : String) (params : Dict String Value) : String :=
  posixName (replaceChar '\\' '/'
    (if expected ≠ "" then expected else Value.strOr (params.get? "package") ""))

/-- `_verify_artifact`. -/
def verifyArtifact (output fact expected : String) (params : Dict String Value) : Bool :=
  if fact = "startup_package" then expected ≠ "" ∧ startupUsesPackage output expected
  else if fact = "package" then
    let name := verifiedName expected params
    name ≠ "" ∧ occursIn (PyLib.casefold name) (PyLib.casefold (replaceChar '\\' '/' output))
  else if expected ≠ "" then occursIn (PyLib.casefold expected) (PyLib.casefold output)
  else strip output ≠ ""

/-- The listing is read as files, and one of them has the package's basename. -/
def Listed (output storage name : String) : Prop :=
  ∃ entries, parseDirEntries output storage = .ok entries ∧
    ∃ entry ∈ entries, packageBasename entry.name = packageBasename name

/-- A verified package is a listed one. -/
def VerificationSound (output storage expected : String) (params : Dict String Value) : Prop :=
  verifyArtifact output "package" expected params = true →
    Listed output storage (verifiedName expected params)

/-- The name of the file that a line is read as. -/
def fileName? (line : String) : Option String :=
  match numberedEntry? line with
  | some m => some (strip (captured m "name"))
  | none => (Patterns.simpleSizeLine.search line).map fun m => strip (captured m "name")

/-- An output mentions a name, in any case and with either slash. -/
def Mentions (output name : String) : Prop :=
  occursIn (PyLib.casefold name) (PyLib.casefold (replaceChar '\\' '/' output)) = true

omit [PyText] in
theorem verifyArtifact_package_iff (output expected : String) (params : Dict String Value) :
    verifyArtifact output "package" expected params = true ↔
      verifiedName expected params ≠ "" ∧ Mentions output (verifiedName expected params) := by
  have hfact : ("package" : String) ≠ "startup_package" := by decide
  unfold verifyArtifact
  rw [if_neg hfact, if_pos rfl]
  simp [Mentions]

/-! ## The names of a listing -/

/-- A line that is read gives the file that its fields name, if it gives one. -/
theorem name_of_parseDirLine {line storage : String} {entry : Option PackageFileEntry}
    (h : parseDirLine storage line = .ok entry) :
    entry.map PackageFileEntry.name = fileName? line := by
  obtain ⟨numbered, hnumbered, hrest⟩ := Except.bind_eq_ok.mp h
  rw [parseNumberedDirLine_eq] at hnumbered
  unfold fileName?
  cases hentry : numberedEntry? line with
  | some m =>
    rw [hentry] at hnumbered
    dsimp only at hnumbered ⊢
    cases hsize : (Value.str (removeChar ',' (captured m "size"))).toInt with
    | error e =>
      rw [hsize] at hnumbered
      cases hnumbered
    | ok n =>
      rw [hsize] at hnumbered
      cases hnumbered
      cases hrest
      rfl
  | none =>
    rw [hentry] at hnumbered
    cases hnumbered
    have hsimple : parseSimpleSizeLine line storage = .ok entry := hrest
    unfold parseSimpleSizeLine at hsimple
    cases hmatch : Patterns.simpleSizeLine.search line with
    | none =>
      rw [hmatch] at hsimple
      cases hsimple
      rfl
    | some m =>
      rw [hmatch] at hsimple
      obtain ⟨n, -, hsome⟩ := Except.bind_eq_ok.mp hsimple
      cases hsome
      rfl

/-- The files of a listing have the names of the lines that are read as files, in their order. -/
theorem names_of_parseDirEntries {output storage : String} {entries : List PackageFileEntry}
    (h : parseDirEntries output storage = .ok entries) :
    entries.map PackageFileEntry.name = (splitlines output).filterMap fileName? := by
  obtain ⟨read, hread, hentries⟩ := Except.bind_eq_ok.mp h
  cases hentries
  have hall := Except.mapM_eq_ok.mp hread
  generalize splitlines output = lines at hall
  clear hread h
  induction hall with
  | nil => rfl
  | cons hline hrest ih =>
    rename_i line entry lines read
    have hname := name_of_parseDirLine hline
    cases entry with
    | none =>
      rw [Option.map_none] at hname
      rw [List.filterMap_cons_none hname.symm, List.reduceOption_cons_of_none]
      exact ih
    | some entry =>
      rw [Option.map_some] at hname
      rw [List.filterMap_cons_some hname.symm, List.reduceOption_cons_of_some, List.map_cons, ih]

variable [PyNumbers]

/-- What a listing must be for a package to be listed. -/
theorem listed_iff (output storage name : String) :
    Listed output storage name ↔ (∀ line ∈ splitlines output, LineReadable line) ∧
      ∃ line ∈ splitlines output, ∃ file, fileName? line = some file ∧
        packageBasename file = packageBasename name := by
  rw [← parseDirEntries_iff output storage]
  have hfiles {entries : List PackageFileEntry} (h : parseDirEntries output storage = .ok entries) :
      (∃ entry ∈ entries, packageBasename entry.name = packageBasename name) ↔
        ∃ line ∈ splitlines output, ∃ file, fileName? line = some file ∧
          packageBasename file = packageBasename name := by
    have hnames := names_of_parseDirEntries h
    constructor
    · rintro ⟨entry, hentry, hname⟩
      have hmem := List.mem_map_of_mem (f := PackageFileEntry.name) hentry
      rw [hnames] at hmem
      obtain ⟨line, hline, hfile⟩ := List.mem_filterMap.mp hmem
      exact ⟨line, hline, entry.name, hfile, hname⟩
    · rintro ⟨line, hline, file, hfile, hname⟩
      have hmem := List.mem_filterMap.mpr ⟨line, hline, hfile⟩
      rw [← hnames] at hmem
      obtain ⟨entry, hentry, rfl⟩ := List.mem_map.mp hmem
      exact ⟨entry, hentry, hname⟩
  constructor
  · rintro ⟨entries, hparsed, hentry⟩
    exact ⟨⟨entries, hparsed⟩, (hfiles hparsed).mp hentry⟩
  · rintro ⟨⟨entries, hparsed⟩, hline⟩
    exact ⟨entries, hparsed, (hfiles hparsed).mpr hline⟩

/-- The verification is sound on an output that does not mention the name at all, and on a readable
listing where a line is read as a file of that name; and on no other. -/
theorem verificationSound_iff (output storage expected : String) (params : Dict String Value) :
    VerificationSound output storage expected params ↔
      verifiedName expected params = "" ∨ ¬Mentions output (verifiedName expected params) ∨
        (∀ line ∈ splitlines output, LineReadable line) ∧
          ∃ line ∈ splitlines output, ∃ file, fileName? line = some file ∧
            packageBasename file = packageBasename (verifiedName expected params) := by
  unfold VerificationSound
  rw [verifyArtifact_package_iff, listed_iff]
  constructor
  · intro h
    by_cases hname : verifiedName expected params = ""
    · exact .inl hname
    by_cases hmentions : Mentions output (verifiedName expected params)
    · exact .inr (.inr (h ⟨hname, hmentions⟩))
    · exact .inr (.inl hmentions)
  · rintro (hname | hmentions | hlisted) ⟨hne, hsome⟩
    · exact absurd hname hne
    · exact absurd hsome hmentions
    · exact hlisted

omit [PyLib] [PyText] [PyNumbers] in
/-- What is verified without being listed: a file that the command asks for, a file that the device
does not find, and the part of a file that is still under way. -/
theorem not_verificationSound_mentioned :
    let := PyLib.numerals
    let := PyText.ascii
    ¬VerificationSound "dir flash:/v2.cc" "flash:/" "v2.cc" ∅ ∧
      ¬VerificationSound "Error: No such file: v2.cc" "flash:/" "v2.cc" ∅ ∧
      ¬VerificationSound "1 -rw- 9 Jan v2.cc.part" "flash:/" "v2.cc" ∅ := by
  let := PyLib.numerals
  let := PyText.ascii
  refine ⟨fun h => ?_, fun h => ?_, fun h => ?_⟩
  · have hempty : parseDirEntries "dir flash:/v2.cc" "flash:/" = .ok [] := by decide +kernel
    obtain ⟨entries, hparsed, entry, hentry, -⟩ := h (by decide +kernel)
    cases hempty.symm.trans hparsed
    cases hentry
  · have hempty : parseDirEntries "Error: No such file: v2.cc" "flash:/" = .ok [] := by
      decide +kernel
    obtain ⟨entries, hparsed, entry, hentry, -⟩ := h (by decide +kernel)
    cases hempty.symm.trans hparsed
    cases hentry
  · have hpart : parseDirEntries "1 -rw- 9 Jan v2.cc.part" "flash:/" =
        .ok [{ path := "flash:/v2.cc.part", name := "v2.cc.part", sizeBytes := 9,
               storage := "flash:/", modifiedText := "Jan" }] := by
      decide +kernel
    have hname : packageBasename "v2.cc.part" ≠ packageBasename (verifiedName "v2.cc" ∅) := by
      decide +kernel
    obtain ⟨entries, hparsed, entry, hentry, hsame⟩ := h (by decide +kernel)
    cases hpart.symm.trans hparsed
    obtain rfl := List.mem_singleton.mp hentry
    exact hname hsame

end DeviceShell.Huawei
