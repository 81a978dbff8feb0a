import DeviceShell.Huawei.Parsers
import DeviceShell.Lib.Fallible

/-!
# The cleanup of a device's storages

`HuaweiVrpDeviceVendorAdapter._cleanup_commands`: from what the precheck recorded, the commands that
delete old packages on the master storage and, with a standby controller, on the slave's. The parser
of `display startup` keeps one value for each field, so `Distinguished` is what the recorded output
must be like for the boot images to be safe.
-/

namespace DeviceShell.Huawei

variable [PyLib] [PyText]

/-- What the execution of a device's activity raises. -/
inductive DeviceError where
  /-- `DeviceWorkflowExecutionError`. -/
  | execution (code message errorClass : String)
  | python (e : PyError)
deriving DecidableEq, Repr

/-- An error of Python itself. -/
def liftPy {α : Type} : Except PyError α → Except DeviceError α
  | .ok a => .ok a
  | .error e => .error (.python e)

/-- `UpgradeCleanupDecision`. -/
structure UpgradeCleanupDecision where
  deleteEntries : List PackageFileEntry
  deletePaths : List String
  hasEnoughSpace : Bool
  freeBytes : ℤ
  requiredBytes : ℤ
  reclaimBytes : ℤ
deriving DecidableEq, Repr

/-- `HuaweiVrpUpgradeDriver.cleanup_plan`. -/
def driverCleanupPlan (storage output startupOutput packageName : String) (packageSize : ℤ) :
    Except PyError UpgradeCleanupDecision := do
  let freeBytes ← parseFreeSpaceBytes output
  let entries ← parseDirEntries output storage
  let plan := buildCleanupPlan storage freeBytes packageSize entries
    (parseDisplayStartup startupOutput) packageName
  return {
    deleteEntries := plan.deleteEntries
    deletePaths := plan.deleteEntries.map PackageFileEntry.path
    hasEnoughSpace := plan.hasEnoughSpace
    freeBytes := plan.freeBytes
    requiredBytes := plan.requiredBytes
    reclaimBytes := plan.reclaimBytes }

omit [PyLib] [PyText] in
/-- `HuaweiVrpCommandSet.cleanup`. -/
def cleanupCommand (path : String) : String := "delete /unreserved /quiet " ++ path

/-- The header with which the device begins the listing of a storage. -/
def directoryMarker (storage : String) : String :=
  PyLib.casefold ("directory of " ++ rstripChar '/' storage)

/-- What stands from the header of a storage to the next header, if the header occurs. -/
def directoryResponse? (output storage : String) : Option String :=
  let marker := directoryMarker storage
  let lowered := PyLib.casefold output
  match find lowered marker 0 with
  | none => none
  | some start =>
    slice output start (find lowered "directory of " (start + marker.length))

/-- `_storage_output` of the adapter. -/
def storageOutput (output storage : String) : String :=
  (directoryResponse? output storage).getD output

/-- `_extract_storage_output` of the older action handler. -/
def extractStorageOutput (output storage : String) : String :=
  (directoryResponse? output storage).getD ""

/-- What `_cleanup_commands` reads before its loop. -/
structure CleanupInputs where
  /-- The package's file name and size. -/
  name : String
  size : ℤ
  /-- The output that the precheck recorded, and the part about the startup software. -/
  output : String
  startup : String
  /-- The storages that are cleaned, with their labels. -/
  storages : List (String × String)
  /-- `auto_delete_old_packages`. -/
  autoDelete : Bool
deriving DecidableEq

/-- `self._transfers.resolve_source(package).size_bytes`, if there is a transfer service. -/
abbrev Transfers := Option (String → Except DeviceError ℤ)

/-- The part of `_cleanup_commands` before its loop. -/
def readCleanupInputs (transfers : Transfers) (params context : Dict String Value) :
    Except DeviceError CleanupInputs := do
  let package := Value.strOr (params.get? "package") ""
  let size ←
    if PyLib.casefold (Value.strOr (params.get? "package_source") "local") = "local" then
      match transfers with
      | some resolveSource => resolveSource package
      | none => pure 0
    else pure 0
  -- Facts that are no dictionary read as an empty one.
  let facts := ((context.get? "action.precheck.facts").bind Value.asDict?).getD ∅
  let output := Value.strOr (facts.get? "output") ""
  let topology := ((facts.get? "topology_detection").bind Value.asDict?).getD ∅
  let includeSlave := ((topology.get? "include_slave").getD
    ((params.get? "include_slave").getD (.bool true))).truthy
  let master := ("master", Value.strOr (params.get? "master_storage") defaultMasterStorage)
  let slave := ("slave", Value.strOr (params.get? "slave_storage") defaultSlaveStorage)
  return {
    name := posixName (replaceChar '\\' '/' package)
    size := size
    output := output
    startup := Value.strOr (facts.get? "startup_output") output
    storages := if includeSlave then [master, slave] else [master]
    autoDelete := ((params.get? "auto_delete_old_packages").getD (.bool false)).truthy }

/-- The decision about one of the storages. -/
def CleanupInputs.plan (inputs : CleanupInputs) (storage : String) :
    Except PyError UpgradeCleanupDecision :=
  driverCleanupPlan storage (storageOutput inputs.output storage) inputs.startup inputs.name
    inputs.size

/-- The body of the loop of `_cleanup_commands`: the commands for one storage. -/
def CleanupInputs.storageCommands (inputs : CleanupInputs) (labelled : String × String) :
    Except DeviceError (List String) := do
  let plan ← liftPy (inputs.plan labelled.2)
  if !plan.hasEnoughSpace then
    .error (.execution "insufficient_space"
      (labelled.1 ++ " storage is insufficient for the package.") "deterministic")
  else if plan.deletePaths ≠ [] ∧ !inputs.autoDelete then
    .error (.execution "cleanup_required"
      (labelled.1 ++ " storage requires cleanup before transfer.") "deterministic")
  else .ok (plan.deletePaths.map cleanupCommand)

/-- `_cleanup_commands`. -/
def cleanupCommands (transfers : Transfers) (params context : Dict String Value) :
    Except DeviceError (List String) := do
  let inputs ← readCleanupInputs transfers params context
  return (← inputs.storages.mapM inputs.storageCommands).flatten

/-! ## What is deleted, and what must not be -/

/-- What the lines about the startup software say, in order. -/
def startupValues (output : String) : List String :=
  (splitlines output).filterMap fun line =>
    (startupField? line).map fun _ => valueAfterColon (strip line)

namespace CleanupInputs

variable (inputs : CleanupInputs)

/-- The call deletes a file of a storage. -/
def Deletes (storage : String) (entry : PackageFileEntry) : Prop :=
  storage ∈ inputs.storages.map Prod.snd ∧
    ∃ plan, inputs.plan storage = .ok plan ∧ entry ∈ plan.deleteEntries

/-- A startup line of the output names a file. -/
def Named (file : String) : Prop :=
  (file ∈ startupValues inputs.output ∨ file ∈ startupValues inputs.startup) ∧
    packageBasename file ≠ ""

/-- The directory response of the storage lists a file, and its name is the whole of the path on
that storage. -/
def ListedOn (storage : String) (entry : PackageFileEntry) : Prop :=
  (∃ entries, parseDirEntries (extractStorageOutput inputs.output storage) storage = .ok entries ∧
    entry ∈ entries) ∧ entry.path = normalizeStorage storage ++ entry.name

/-- No command of the call deletes anything but an old package that its storage lists: not the
target package, not a file that a startup line names; and without such a line there is none. -/
structure KeepsBootImages (commands : List String) : Prop where
  listed : ∀ storage entry, inputs.Deletes storage entry → inputs.ListedOn storage entry
  package : ∀ storage entry, inputs.Deletes storage entry →
    endsWith (PyLib.casefold entry.name) ccSuffix = true
  target : ∀ storage entry, inputs.Deletes storage entry →
    packageBasename entry.name ≠ packageBasename inputs.name
  startup : ∀ storage entry, inputs.Deletes storage entry → ∀ file, inputs.Named file →
    packageBasename entry.name ≠ packageBasename file
  recognised : (∀ file, ¬inputs.Named file) → commands = []

/-! ## When it holds -/

/-- The two values that `parse_display_startup` keeps. -/
def kept : StartupInfo := parseDisplayStartup inputs.startup

/-- The candidates among the files that are read for a storage, in the order in which they are
deleted. -/
def candidates (storage : String) (entries : List PackageFileEntry) : List PackageFileEntry :=
  sortedCandidates entries (protectedPackagePaths inputs.kept inputs.name storage []) inputs.name

/-- A candidate of a storage that is short of space, the candidates before it not being enough for
the package and the reserve. -/
def Needed (storage : String) (entry : PackageFileEntry) : Prop :=
  storage ∈ inputs.storages.map Prod.snd ∧
    ∃ free entries before after,
      parseFreeSpaceBytes (storageOutput inputs.output storage) = .ok free ∧
      parseDirEntries (storageOutput inputs.output storage) storage = .ok entries ∧
      inputs.candidates storage entries = before ++ entry :: after ∧
      ∀ taken, taken <+: before →
        max 0 free + (taken.map PackageFileEntry.sizeBytes).sum <
          max 0 (inputs.size + 64 * 1024 * 1024)

/-- What the output must be like where space is short: it holds the storage's own directory
response, with plain file names, and a startup line that names a file; and a line whose value the
parser overwrites names no file that would have to go. -/
structure Distinguished : Prop where
  response : ∀ storage entry, inputs.Needed storage entry →
    (directoryResponse? inputs.output storage).isSome
  plain : ∀ storage entry, inputs.Needed storage entry → posixName entry.name = entry.name
  recognised : ∀ storage entry, inputs.Needed storage entry → ∃ file, inputs.Named file
  overwritten : ∀ storage entry, inputs.Needed storage entry → ∀ file, inputs.Named file →
    file ≠ inputs.kept.currentSystem → file ≠ inputs.kept.nextSystem →
      packageBasename entry.name ≠ packageBasename file

variable {inputs}

/-! ## The plan deletes what is needed -/

/-- What a decision about a storage is made of. -/
theorem plan_eq {storage : String} {plan : UpgradeCleanupDecision}
    (h : inputs.plan storage = .ok plan) :
    ∃ free entries,
      parseFreeSpaceBytes (storageOutput inputs.output storage) = .ok free ∧
      parseDirEntries (storageOutput inputs.output storage) storage = .ok entries ∧
      plan.deleteEntries = (buildCleanupPlan storage free inputs.size entries inputs.kept
        inputs.name).deleteEntries ∧
      plan.deletePaths = plan.deleteEntries.map PackageFileEntry.path := by
  obtain ⟨free, hfree, h⟩ := Except.bind_eq_ok.mp h
  obtain ⟨entries, hentries, h⟩ := Except.bind_eq_ok.mp h
  cases h
  exact ⟨free, entries, hfree, hentries, rfl, rfl⟩

omit [PyText] in
/-- The entries that a cleanup plan deletes. -/
theorem mem_deleteEntries {storage : String} {free : ℤ} {entries : List PackageFileEntry}
    {entry : PackageFileEntry} :
    entry ∈ (buildCleanupPlan storage free inputs.size entries inputs.kept
        inputs.name).deleteEntries ↔
      ∃ before after, inputs.candidates storage entries = before ++ entry :: after ∧
        ∀ taken, taken <+: before →
          max 0 free + (taken.map PackageFileEntry.sizeBytes).sum <
            max 0 (inputs.size + 64 * 1024 * 1024) := by
  dsimp only [buildCleanupPlan]
  split_ifs with henough
  · constructor
    · intro h
      cases h
    · rintro ⟨before, after, -, h⟩
      have := h [] List.nil_prefix
      simp only [List.map_nil, List.sum_nil] at this
      omega
  · exact mem_takeEntries

/-- When the decision about a storage is made, what it deletes is what is needed. -/
theorem deletes_iff_needed {storage : String} {plan : UpgradeCleanupDecision}
    (h : inputs.plan storage = .ok plan) (entry : PackageFileEntry) :
    inputs.Deletes storage entry ↔ inputs.Needed storage entry := by
  obtain ⟨free, entries, hfree, hentries, hdelete, -⟩ := plan_eq h
  constructor
  · rintro ⟨hstorage, plan', hplan, hentry⟩
    cases h.symm.trans hplan
    rw [hdelete, mem_deleteEntries] at hentry
    obtain ⟨before, after, hsplit, hshort⟩ := hentry
    exact ⟨hstorage, free, entries, before, after, hfree, hentries, hsplit, hshort⟩
  · rintro ⟨hstorage, free', entries', before, after, hfree', hentries', hsplit, hshort⟩
    cases hfree.symm.trans hfree'
    cases hentries.symm.trans hentries'
    refine ⟨hstorage, plan, h, ?_⟩
    rw [hdelete, mem_deleteEntries]
    exact ⟨before, after, hsplit, hshort⟩

/-- The commands for a storage delete what the decision about it says. -/
theorem storageCommands_eq {labelled : String × String} {commands : List String}
    (h : inputs.storageCommands labelled = .ok commands) :
    ∃ plan, inputs.plan labelled.2 = .ok plan ∧
      commands = plan.deleteEntries.map fun entry => cleanupCommand entry.path := by
  obtain ⟨plan, hplan, h⟩ := Except.bind_eq_ok.mp h
  have hok : inputs.plan labelled.2 = .ok plan := by
    cases hp : inputs.plan labelled.2 with
    | error e => rw [hp] at hplan; cases hplan
    | ok p => rw [hp] at hplan; cases hplan; rfl
  obtain ⟨-, -, -, -, -, hpaths⟩ := plan_eq hok
  refine ⟨plan, hok, ?_⟩
  split at h
  · cases h
  split at h
  · cases h
  cases h
  rw [hpaths, List.map_map]
  rfl

omit [PyText] in
/-- A candidate is an old package of the listing that nothing protects. -/
theorem of_mem_candidates {storage : String} {entries : List PackageFileEntry}
    {entry : PackageFileEntry} (h : entry ∈ inputs.candidates storage entries) :
    entry ∈ entries ∧ endsWith (PyLib.casefold entry.name) ccSuffix = true ∧
      packageBasename entry.name ≠ packageBasename inputs.name ∧
      packageBasename entry.name ∉
        protectedPackagePaths inputs.kept inputs.name storage [] := by
  have hmem := (List.perm_insertionSort sortsBefore _).mem_iff.mp h
  obtain ⟨hentry, hdelete⟩ := List.mem_filter.mp hmem
  unfold canDeletePackage at hdelete
  split_ifs at hdelete with hcc htarget
  have hprotected := of_decide_eq_true hdelete
  exact ⟨hentry, by simpa using hcc, htarget, hprotected.2⟩

omit [PyText] in
/-- The two files whose names the parser keeps are protected. -/
theorem basename_ne_of_kept {storage file : String} {entry : PackageFileEntry}
    (hfile : packageBasename file ≠ "")
    (hkept : file = inputs.kept.currentSystem ∨ file = inputs.kept.nextSystem)
    (h : packageBasename entry.name ∉ protectedPackagePaths inputs.kept inputs.name storage []) :
    packageBasename entry.name ≠ packageBasename file := by
  intro hsame
  apply h
  rw [hsame, protectedPackagePaths, List.mem_filter]
  refine ⟨?_, by simpa using hfile⟩
  rcases hkept with rfl | rfl <;> simp

/-- A call is safe for the boot images exactly when the output is distinguished. -/
theorem keepsBootImages_iff {commands : List String}
    (hplan : ∀ storage ∈ inputs.storages.map Prod.snd, ∃ plan, inputs.plan storage = .ok plan)
    (hcommands : ∀ command, command ∈ commands ↔
      ∃ storage entry, inputs.Deletes storage entry ∧ command = cleanupCommand entry.path) :
    inputs.KeepsBootImages commands ↔ inputs.Distinguished := by
  have hiff : ∀ storage entry, inputs.Deletes storage entry ↔ inputs.Needed storage entry := by
    intro storage entry
    constructor
    · intro h
      obtain ⟨plan, hp⟩ := hplan storage h.1
      exact (deletes_iff_needed hp entry).mp h
    · intro h
      obtain ⟨plan, hp⟩ := hplan storage h.1
      exact (deletes_iff_needed hp entry).mpr h
  constructor
  · intro h
    refine ⟨fun storage entry hneeded => ?_, fun storage entry hneeded => ?_,
      fun storage entry hneeded => ?_, fun storage entry hneeded file hfile _ _ =>
        h.startup storage entry ((hiff storage entry).mpr hneeded) file hfile⟩
    · -- Without the response nothing is listed.
      obtain ⟨⟨entries, hentries, hentry⟩, -⟩ :=
        h.listed storage entry ((hiff storage entry).mpr hneeded)
      by_contra hnone
      rw [Option.not_isSome_iff_eq_none] at hnone
      rw [extractStorageOutput, hnone] at hentries
      cases hentries
      cases hentry
    · obtain ⟨⟨entries, hentries, hentry⟩, hpath⟩ :=
        h.listed storage entry ((hiff storage entry).mpr hneeded)
      rw [path_of_mem_parseDirEntries hentries hentry] at hpath
      exact (String.append_right_inj _).mp hpath
    · by_contra hnone
      have hempty := h.recognised fun file hfile => hnone ⟨file, hfile⟩
      have hmem := (hcommands _).mpr ⟨storage, entry, (hiff storage entry).mpr hneeded, rfl⟩
      rw [hempty] at hmem
      cases hmem
  · intro h
    have hcandidate : ∀ storage entry, inputs.Deletes storage entry →
        ∃ entries, parseDirEntries (storageOutput inputs.output storage) storage = .ok entries ∧
          entry ∈ inputs.candidates storage entries := by
      intro storage entry hdeletes
      obtain ⟨-, -, entries, before, after, -, hentries, hsplit, -⟩ :=
        (hiff storage entry).mp hdeletes
      exact ⟨entries, hentries, hsplit ▸ by simp⟩
    refine ⟨fun storage entry hdeletes => ?_, fun storage entry hdeletes => ?_,
      fun storage entry hdeletes => ?_, fun storage entry hdeletes file hfile => ?_,
      fun hnone => ?_⟩
    · have hneeded := (hiff storage entry).mp hdeletes
      obtain ⟨entries, hentries, hcand⟩ := hcandidate storage entry hdeletes
      have hentry := (of_mem_candidates hcand).1
      obtain ⟨response, hresponse⟩ := Option.isSome_iff_exists.mp (h.response storage entry hneeded)
      have hsame : extractStorageOutput inputs.output storage =
          storageOutput inputs.output storage := by
        rw [extractStorageOutput, storageOutput, hresponse]
        rfl
      refine ⟨⟨entries, hsame ▸ hentries, hentry⟩, ?_⟩
      rw [path_of_mem_parseDirEntries hentries hentry, h.plain storage entry hneeded]
    · obtain ⟨entries, -, hcand⟩ := hcandidate storage entry hdeletes
      exact (of_mem_candidates hcand).2.1
    · obtain ⟨entries, -, hcand⟩ := hcandidate storage entry hdeletes
      exact (of_mem_candidates hcand).2.2.1
    · obtain ⟨entries, -, hcand⟩ := hcandidate storage entry hdeletes
      by_cases hkept : file = inputs.kept.currentSystem ∨ file = inputs.kept.nextSystem
      · exact basename_ne_of_kept hfile.2 hkept (of_mem_candidates hcand).2.2.2
      · rw [not_or] at hkept
        exact h.overwritten storage entry ((hiff storage entry).mp hdeletes) file hfile hkept.1
          hkept.2
    · rw [List.eq_nil_iff_forall_not_mem]
      intro command hcommand
      obtain ⟨storage, entry, hdeletes, -⟩ := (hcommands command).mp hcommand
      obtain ⟨file, hfile⟩ := h.recognised storage entry ((hiff storage entry).mp hdeletes)
      exact hnone file hfile

end CleanupInputs

/-- A call that returns has decided about every storage, and its commands are the delete commands
of the decisions. -/
theorem cleanupCommands_eq {transfers : Transfers} {params context : Dict String Value}
    {commands : List String} (h : cleanupCommands transfers params context = .ok commands) :
    ∃ inputs, readCleanupInputs transfers params context = .ok inputs ∧
      (∀ storage ∈ inputs.storages.map Prod.snd, ∃ plan, inputs.plan storage = .ok plan) ∧
      ∀ command, command ∈ commands ↔
        ∃ storage entry, inputs.Deletes storage entry ∧ command = cleanupCommand entry.path := by
  obtain ⟨inputs, hinputs, h⟩ := Except.bind_eq_ok.mp h
  obtain ⟨each, heach, h⟩ := Except.bind_eq_ok.mp h
  cases h
  refine ⟨inputs, hinputs, fun storage hstorage => ?_, fun command => ?_⟩
  · obtain ⟨labelled, hlabelled, rfl⟩ := List.mem_map.mp hstorage
    obtain ⟨commands, hcommands⟩ := Except.ok_of_mem_mapM heach hlabelled
    obtain ⟨plan, hp, -⟩ := CleanupInputs.storageCommands_eq hcommands
    exact ⟨plan, hp⟩
  · rw [Except.mem_flatten_of_mapM heach]
    constructor
    · rintro ⟨labelled, hlabelled, commands, hcommands, hcommand⟩
      obtain ⟨plan, hp, rfl⟩ := CleanupInputs.storageCommands_eq hcommands
      obtain ⟨entry, hentry, rfl⟩ := List.mem_map.mp hcommand
      exact ⟨labelled.2, entry, ⟨List.mem_map_of_mem hlabelled, plan, hp, hentry⟩, rfl⟩
    · rintro ⟨storage, entry, ⟨hstorage, plan, hp, hentry⟩, rfl⟩
      obtain ⟨labelled, hlabelled, rfl⟩ := List.mem_map.mp hstorage
      obtain ⟨commands, hcommands⟩ := Except.ok_of_mem_mapM heach hlabelled
      obtain ⟨plan', hp', rfl⟩ := CleanupInputs.storageCommands_eq hcommands
      cases hp.symm.trans hp'
      exact ⟨labelled, hlabelled, _, hcommands, List.mem_map.mpr ⟨entry, hentry, rfl⟩⟩

/-- The commands that the adapter returns are the delete commands of what the call deletes, and they
keep the device's boot images exactly when the recorded output is distinguished. -/
theorem cleanupCommands_keepsBootImages_iff {transfers : Transfers}
    {params context : Dict String Value} {commands : List String}
    (h : cleanupCommands transfers params context = .ok commands) :
    ∃ inputs, readCleanupInputs transfers params context = .ok inputs ∧
      (∀ command, command ∈ commands ↔
        ∃ storage entry, inputs.Deletes storage entry ∧ command = cleanupCommand entry.path) ∧
      (inputs.KeepsBootImages commands ↔ inputs.Distinguished) := by
  obtain ⟨inputs, hinputs, hplan, hcommands⟩ := cleanupCommands_eq h
  exact ⟨inputs, hinputs, hcommands, CleanupInputs.keepsBootImages_iff hplan hcommands⟩

/-! ## A device with two boards -/

/-- An upgrade with a package that is on the device, on its only storage. -/
def onDeviceParams : Dict String Value :=
  ⟨[("package", .str "target.cc"), ("package_source", .str "device"),
    ("include_slave", .bool false), ("auto_delete_old_packages", .bool true)]⟩

/-- Each of the two boards runs its own image, and the storage holds the first board's. -/
def twoBoards : String :=
  "Current startup system software: flash:/old.cc\nCurrent startup system software: flash:/new.cc
Directory of flash:/\n0 -rw- 128000000 Jan old.cc\n"

/-- A run whose precheck recorded an output. -/
def precheckContext (output : String) : Dict String Value :=
  ⟨[("action.precheck.facts", .dict [("output", .str output)])]⟩

omit [PyLib] [PyText] in
/-- The parser keeps the second board's image only, and the first board's is deleted. -/
theorem cleanupCommands_twoBoards : letI := PyLib.decimal; letI := PyText.ascii
    cleanupCommands none onDeviceParams (precheckContext twoBoards) =
      .ok ["delete /unreserved /quiet flash:/old.cc"] := by
  decide +kernel

omit [PyLib] [PyText] in
/-- The equivalence at the device with two boards. -/
theorem keepsBootImages_iff_twoBoards : letI := PyLib.decimal; letI := PyText.ascii
    ∃ inputs, readCleanupInputs none onDeviceParams (precheckContext twoBoards) = .ok inputs ∧
      (∀ command, command ∈ ["delete /unreserved /quiet flash:/old.cc"] ↔
        ∃ storage entry, inputs.Deletes storage entry ∧ command = cleanupCommand entry.path) ∧
      (inputs.KeepsBootImages ["delete /unreserved /quiet flash:/old.cc"] ↔
        inputs.Distinguished) :=
  letI := PyLib.decimal
  letI := PyText.ascii
  cleanupCommands_keepsBootImages_iff cleanupCommands_twoBoards

omit [PyLib] [PyText] in
/-- The commands need not keep the boot images: the first board's is deleted. -/
theorem not_cleanupCommands_keepsBootImages : letI := PyLib.decimal; letI := PyText.ascii
    ¬∀ (transfers : Transfers) (params context : Dict String Value) (commands : List String),
      cleanupCommands transfers params context = .ok commands →
        ∃ inputs, readCleanupInputs transfers params context = .ok inputs ∧
          inputs.KeepsBootImages commands := by
  let := PyLib.decimal
  let := PyText.ascii
  intro hall
  obtain ⟨inputs, hinputs, hkeeps⟩ := hall _ _ _ _ cleanupCommands_twoBoards
  obtain ⟨inputs', hinputs', -, hdeletes⟩ := cleanupCommands_eq cleanupCommands_twoBoards
  cases hinputs.symm.trans hinputs'
  have hread : readCleanupInputs none onDeviceParams (precheckContext twoBoards) = .ok
      { name := "target.cc", size := 0, output := twoBoards, startup := twoBoards,
        storages := [("master", "flash:/")], autoDelete := true } := by
    decide +kernel
  cases hinputs.symm.trans hread
  obtain ⟨storage, entry, hentry, hcommand⟩ := (hdeletes _).mp (List.mem_singleton.mpr rfl)
  have hstorage : storage = "flash:/" := List.mem_singleton.mp hentry.1
  -- The command names the file, and the listing gives its name on the storage.
  have hdelete : "delete /unreserved /quiet flash:/old.cc" = cleanupCommand "flash:/old.cc" := by
    decide +kernel
  have hpath : "flash:/old.cc" = entry.path :=
    (String.append_right_inj "delete /unreserved /quiet ").mp (hdelete.symm.trans hcommand)
  have hname : "old.cc" = entry.name := by
    have hlisted := (hkeeps.listed storage entry hentry).2
    have hnormal : normalizeStorage "flash:/" = "flash:/" := by decide +kernel
    have hsplit : "flash:/old.cc" = "flash:/" ++ "old.cc" := by decide +kernel
    rw [← hpath, hstorage, hnormal, hsplit] at hlisted
    exact (String.append_right_inj "flash:/").mp hlisted
  have hnamed : "flash:/old.cc" ∈ startupValues twoBoards := by decide +kernel
  have hbase : packageBasename "old.cc" = packageBasename "flash:/old.cc" := by decide +kernel
  have hne : packageBasename "flash:/old.cc" ≠ "" := by decide +kernel
  exact hkeeps.startup storage entry hentry "flash:/old.cc" ⟨.inl hnamed, hne⟩ (hname ▸ hbase)

end DeviceShell.Huawei
