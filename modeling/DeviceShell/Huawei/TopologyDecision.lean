import DeviceShell.Huawei.CleanupPlan
import DeviceShell.Huawei.Probe

/-!
# Continuing as with a single controller

What the cleanup and the synchronisation do after the operator's decision `continue_single`, and what
they do in a run whose policy is `single`, on the same outputs of the device. The first run has the
details of the probe's error for its facts, in which there is no output, so that its cleanup sees an
empty storage. The two runs do the same just where the storage is short of space on its own listing
as well (`continueSingle_iff`).
-/

namespace DeviceShell.Huawei

open Framework Activity

variable [PyLib] [PyText]

/-! ## The two runs -/

/-- What an upgrade is told about its package and the storages. -/
structure StorageInputs where
  package : String
  packageSource : String
  /-- `cleanup_policy == "auto"`. -/
  autoClean : Bool
  masterStorage : String
  slaveStorage : String
  driverId : String

namespace StorageInputs

variable (w : StorageInputs)

/-- The parameters of `precheck`, without its probes, which choose the queries. -/
def precheckParams (policy : String) : Dict String Value :=
  ⟨[("package", .str w.package), ("package_source", .str w.packageSource),
    ("topology_policy", .str policy), ("master_storage", .str w.masterStorage),
    ("slave_storage", .str w.slaveStorage)]⟩

/-- The parameters of `cleanup`. -/
def cleanupParams (policy : String) : Dict String Value :=
  ⟨[("_framework_activity", .bool true), ("package", .str w.package),
    ("package_source", .str w.packageSource), ("include_slave", .bool (policy ≠ "single")),
    ("standby_required", .bool (policy = "required")),
    ("auto_delete_old_packages", .bool w.autoClean), ("master_storage", .str w.masterStorage),
    ("slave_storage", .str w.slaveStorage), ("driver_id", .str w.driverId)]⟩

/-- The parameters of `sync_standby`. -/
def syncParams : Dict String Value :=
  ⟨[("_framework_activity", .bool true), ("package", .str w.package),
    ("master_storage", .str w.masterStorage), ("slave_storage", .str w.slaveStorage),
    ("driver_id", .str w.driverId)]⟩

end StorageInputs

/-- How a run comes to its storages. -/
inductive StorageOutcome where
  /-- Its precheck did not succeed. -/
  | stopped
  /-- The commands that the two Activities issue, or what they raise. -/
  | reached (cleanup : Except DeviceError (List String)) (sync : Except PyError (List String))
deriving DecidableEq

/-- The run after its precheck, with the facts of the result. -/
def prechecked (run : WorkflowRun) (result : Except DeviceException (Dict String Value)) :
    WorkflowRun :=
  Runtime.withActionFacts run "precheck" (actionResult (vendorActivity "device.probe" result)).facts

/-- The cleanup and the synchronisation of a run. -/
def reachStorages (transfers : Transfers) (w : StorageInputs) (policy : String)
    (run : WorkflowRun) : StorageOutcome :=
  .reached (cleanupCommands transfers (w.cleanupParams policy) run.context)
    (syncCommands w.syncParams run.context)

/-- A run whose policy is `single`. -/
def runSingle (transfers : Transfers) (w : StorageInputs) (run : WorkflowRun)
    (precheck standby : Except DeviceException (Dict String Value)) : StorageOutcome :=
  match probe transfers (w.precheckParams "single") precheck standby with
  | .ok facts => reachStorages transfers w "single" (prechecked run (.ok facts))
  | .error _ => .stopped

/-- A run whose policy is `auto`, after the decision `continue_single`, which takes it from the
failed precheck to the cleanup. -/
def continueSingle (transfers : Transfers) (w : StorageInputs) (run : WorkflowRun)
    (precheck standby : Except DeviceException (Dict String Value)) : StorageOutcome :=
  reachStorages transfers w "auto"
    (prechecked run (probe transfers (w.precheckParams "auto") precheck standby))

/-- The output of the precheck is one whose topology is indeterminate. -/
def Indeterminate (transfers : Transfers) (w : StorageInputs) (data : Dict String Value)
    (standby : Except DeviceException (Dict String Value)) : Prop :=
  ∃ collected facts, probeStandby data (w.precheckParams "auto") standby = .ok collected ∧
    probeFacts transfers collected (w.precheckParams "auto") = .ok facts ∧
    effectiveMode collected (w.precheckParams "auto") = .indeterminate

/-! ## When they do the same -/

/-- The size that the cleanup takes for the package. -/
def StorageInputs.packageSize (w : StorageInputs) (transfers : Transfers) :
    Except DeviceError ℤ :=
  if PyLib.casefold (Value.strOr (some (.str w.packageSource)) "local") = "local" then
    match transfers with
    | some resolveSource => resolveSource (Value.strOr (some (.str w.package)) "")
    | none => pure 0
  else pure 0

/-- What the cleanup of a single controller reads off an output of the device. -/
def StorageInputs.cleanupInputs (w : StorageInputs) (size : ℤ) (output startup : String) :
    CleanupInputs where
  name := posixName (replaceChar '\\' '/' (Value.strOr (some (.str w.package)) ""))
  size := size
  output := output
  startup := startup
  storages := [("master", Value.strOr (some (.str w.masterStorage)) defaultMasterStorage)]
  autoDelete := w.autoClean

/-- The listing of a storage can be read, and it stays short of space whichever of the old packages
go first; or else no space is required. -/
def CleanupInputs.Short (inputs : CleanupInputs) (storage : String) : Prop :=
  ∃ free entries,
    parseFreeSpaceBytes (storageOutput inputs.output storage) = .ok free ∧
    parseDirEntries (storageOutput inputs.output storage) storage = .ok entries ∧
    (inputs.size + 64 * 1024 * 1024 ≤ 0 ∨
      ∀ taken, taken <+: inputs.candidates storage entries →
        max 0 free + (taken.map PackageFileEntry.sizeBytes).sum < inputs.size + 64 * 1024 * 1024)

/-- On its own output, the master storage has no room for the package either: the entry of the
package in the listing can be read, and its source cannot be resolved or the storage is short. -/
def ShortAnyway (transfers : Transfers) (w : StorageInputs) (data : Dict String Value) : Prop :=
  let output := Value.strOr (data.get? "output") ""
  let startup := Value.strOr (data.get? "startup_output") output
  (∃ facts, probePackage transfers data (w.precheckParams "single") ∅ = .ok facts) ∧
    ∀ size, w.packageSize transfers = .ok size →
      (w.cleanupInputs size output startup).Short
        (Value.strOr (some (.str w.masterStorage)) defaultMasterStorage)

/-! ## The facts of a probe -/

/-- The keys of the facts that a probe collects. -/
def factKeys : List String := ["topology_detection", "startup", "package", "standby_package"]

/-- The facts about a topology: all that the storages read of them. -/
structure TopologyFacts (facts topology : Dict String Value) : Prop where
  topology : facts.get? "topology_detection" = some (.ofDict topology)
  keys : ∀ key ∈ facts.keys, key ∈ factKeys
  nodup : facts.keys.Nodup

omit [PyLib] [PyText] in
theorem TopologyFacts.set {facts topology : Dict String Value} (h : TopologyFacts facts topology)
    (key : String) (hkey : key ∈ factKeys.tail) (v : Value) :
    TopologyFacts (facts.set key v) topology := by
  have hne : "topology_detection" ≠ key := by
    rintro rfl
    revert hkey
    decide
  refine ⟨?_, fun k hk => ?_, Dict.nodup_keys_set h.nodup key v⟩
  · rw [Dict.get?_set_of_ne _ hne]
    exact h.topology
  · rcases (Dict.mem_keys_set facts key k v).mp hk with rfl | hk
    · exact List.mem_of_mem_tail hkey
    · exact h.keys k hk

/-- A probe's part about the package adds the facts about it. -/
theorem TopologyFacts.probePackage {transfers : Transfers}
    {data params facts facts' topology : Dict String Value} (h : TopologyFacts facts topology)
    (hprobe : probePackage transfers data params facts = .ok facts') :
    TopologyFacts facts' topology := by
  unfold Huawei.probePackage at hprobe
  split at hprobe
  · cases hprobe
    exact h
  · obtain ⟨present, -, hprobe⟩ := Except.bind_eq_ok.mp hprobe
    have hpackage := h.set "package" (by decide)
    split at hprobe
    · obtain ⟨present', -, hprobe⟩ := Except.bind_eq_ok.mp hprobe
      cases hprobe
      exact (hpackage _).set "standby_package" (by decide) _
    · cases hprobe
      exact hpackage _

theorem topologyFacts_of_probeFacts {transfers : Transfers} {data params facts : Dict String Value}
    (h : probeFacts transfers data params = .ok facts) :
    TopologyFacts facts (topologyDetection data params) := by
  have hfirst : TopologyFacts
      ⟨[("topology_detection", .ofDict (topologyDetection data params))]⟩
      (topologyDetection data params) := by
    refine ⟨rfl, fun key hkey => ?_, List.nodup_singleton _⟩
    rw [List.mem_singleton.mp hkey]
    exact List.mem_cons_self
  refine TopologyFacts.probePackage ?_ h
  split
  · exact hfirst.set "startup" (by decide) _
  · exact hfirst

/-- The part about the package returns whatever the facts before it are. -/
theorem probePackage_returns {transfers : Transfers} {data params facts : Dict String Value}
    (h : ∃ facts', probePackage transfers data params facts = .ok facts') (other : Dict String Value) :
    ∃ facts', probePackage transfers data params other = .ok facts' := by
  obtain ⟨facts', h⟩ := h
  unfold probePackage at h ⊢
  split at h
  · exact ⟨other, rfl⟩
  · obtain ⟨present, hpresent, h⟩ := Except.bind_eq_ok.mp h
    dsimp only
    rw [hpresent]
    split at h
    · rename_i hdual
      obtain ⟨present', hpresent', -⟩ := Except.bind_eq_ok.mp h
      exact ⟨_, by
        show (if _ then _ else _) = _
        rw [if_pos hdual, hpresent']
        rfl⟩
    · rename_i hdual
      exact ⟨_, by
        show (if _ then _ else _) = _
        rw [if_neg hdual]
        rfl⟩

/-- Whether the facts can be collected is a matter of the package. -/
theorem probeFacts_returns_iff {transfers : Transfers} {data params : Dict String Value} :
    (∃ facts, probeFacts transfers data params = .ok facts) ↔
      ∃ facts, probePackage transfers data params ∅ = .ok facts := by
  unfold probeFacts
  constructor
  · intro h
    exact probePackage_returns h ∅
  · intro h
    exact probePackage_returns h _

/-! ## What the two runs have recorded -/

omit [PyLib] [PyText] in
/-- The action's facts are the outputs of the Activity but for three keys. -/
theorem get?_actionResult (result : ActivityResult) (key : String)
    (hkey : key ∉ ["error", "operation_id", "evidence"]) :
    (actionResult result).facts.get? key = result.outputs.get? key := by
  simp only [List.mem_cons, List.not_mem_nil, or_false, not_or] at hkey
  obtain ⟨herror, hoperation, hevidence⟩ := hkey
  have hdefault (d : Dict String Value) (v : Value) :
      (setDefault d "error" v).get? key = d.get? key := by
    unfold setDefault
    split
    · rfl
    · exact Dict.get?_set_of_ne _ herror _
  unfold actionResult
  dsimp only
  split_ifs
  all_goals
    cases result.error with
    | none => simp [Dict.get?_set_of_ne _ hoperation, Dict.get?_set_of_ne _ hevidence]
    | some e =>
      simp [Dict.get?_set_of_ne _ hoperation, Dict.get?_set_of_ne _ hevidence, hdefault]

omit [PyText] in
/-- The facts that a run has of its precheck. -/
theorem facts_prechecked (run : WorkflowRun) (result : Except DeviceException (Dict String Value))
    {v : Value} (h : (vendorActivity "device.probe" result).outputs.get? "topology_detection" = some v) :
    ((prechecked run result).context.get? "action.precheck.facts").bind Value.asDict? =
      some (actionResult (vendorActivity "device.probe" result)).facts := by
  have hget := (get?_actionResult (vendorActivity "device.probe" result)
    "topology_detection" (by decide)).trans h
  unfold prechecked Runtime.withActionFacts
  split
  · rename_i hempty
    unfold Dict.get? at hget
    rw [List.isEmpty_iff.mp hempty] at hget
    cases hget
  · have hkey : ("action." ++ "precheck" ++ ".facts" : String) = "action.precheck.facts" := by decide
    dsimp only
    rw [hkey, Dict.get?_set_self]
    rfl

omit [PyLib] [PyText] in
/-- A loop over one storage. -/
theorem flatten_mapM_singleton {α β ε : Type} (f : α → Except ε (List β)) (a : α) :
    (do return (← [a].mapM f).flatten : Except ε (List β)) = f a := by
  rw [List.mapM_cons, List.mapM_nil]
  cases f a with
  | error e => rfl
  | ok bs =>
    show Except.ok (bs ++ []) = _
    rw [List.append_nil]

section Single

variable {w : StorageInputs} {transfers : Transfers} {context facts topology : Dict String Value}
  (hfacts : (context.get? "action.precheck.facts").bind Value.asDict? = some facts)
  (htopology : facts.get? "topology_detection" = some (.ofDict topology))
  (hslave : topology.get? "include_slave" = some (.bool false))

include hfacts htopology hslave

omit [PyText] in
/-- What the cleanup reads where the facts leave out the slave. -/
theorem readCleanupInputs_single (policy : String) :
    readCleanupInputs transfers (w.cleanupParams policy) context = do
      let size ← w.packageSize transfers
      return w.cleanupInputs size (Value.strOr (facts.get? "output") "")
        (Value.strOr (facts.get? "startup_output") (Value.strOr (facts.get? "output") "")) := by
  have hread : (facts.get? "topology_detection").bind Value.asDict? = some topology := by
    rw [htopology]
    rfl
  have hsource : (w.cleanupParams policy).get? "package_source" = some (.str w.packageSource) := rfl
  have hpackage : (w.cleanupParams policy).get? "package" = some (.str w.package) := rfl
  unfold readCleanupInputs StorageInputs.packageSize
  simp only [hfacts, Option.getD_some, hread, hslave, hsource, hpackage]
  split
  · cases transfers <;> rfl
  · rfl

/-- The cleanup is that of the master storage. -/
theorem cleanupCommands_single (policy : String) :
    cleanupCommands transfers (w.cleanupParams policy) context =
      (w.packageSize transfers).bind fun size =>
        (w.cleanupInputs size (Value.strOr (facts.get? "output") "")
          (Value.strOr (facts.get? "startup_output")
            (Value.strOr (facts.get? "output") ""))).storageCommands
          ("master", Value.strOr (some (.str w.masterStorage)) defaultMasterStorage) := by
  unfold cleanupCommands
  rw [readCleanupInputs_single hfacts htopology hslave]
  cases w.packageSize transfers with
  | error e => rfl
  | ok size => exact flatten_mapM_singleton _ _

omit [PyText] in
/-- There is nothing to synchronise. -/
theorem syncCommands_single : syncCommands w.syncParams context = .ok [] := by
  unfold syncCommands mapping?
  rw [hfacts]
  dsimp only [Option.getD_some]
  rw [htopology]
  show (if _ then _ else _) = _
  have hget : Dict.get? ⟨topology.entries⟩ "include_slave" = some (.bool false) := hslave
  rw [hget]
  rfl

end Single

/-! ## Short of space -/

omit [PyLib] [PyText] in
/-- What is taken is not enough just where nothing that comes first is. -/
theorem takeEntries_short_iff (required available : ℤ) (entries : List PackageFileEntry) :
    available + ((takeEntries required available entries).map PackageFileEntry.sizeBytes).sum <
        required ↔
      ∀ taken, taken <+: entries →
        available + (taken.map PackageFileEntry.sizeBytes).sum < required := by
  constructor
  · intro hshort taken htaken
    have hall := takeEntries_complete required available entries hshort
    rcases Nat.lt_or_ge taken.length entries.length with hlt | hge
    · exact takeEntries_shortest required available entries taken htaken (by rwa [hall])
    · obtain rfl : taken = entries := htaken.eq_of_length_le hge
      rwa [hall] at hshort
  · intro h
    exact h _ (takeEntries_begins required available entries)

namespace CleanupInputs

variable (inputs : CleanupInputs)

omit [PyText] in
/-- A cleanup plan does not come to enough space just where no part of the candidates does. -/
theorem not_hasEnoughSpace_iff (storage : String) (free : ℤ) (entries : List PackageFileEntry) :
    (buildCleanupPlan storage free inputs.size entries inputs.kept inputs.name).hasEnoughSpace =
        false ↔
      ∀ taken, taken <+: inputs.candidates storage entries →
        max 0 free + (taken.map PackageFileEntry.sizeBytes).sum <
          max 0 (inputs.size + 64 * 1024 * 1024) := by
  rw [hasEnoughSpace_eq_false, buildCleanupPlan]
  dsimp only
  split_ifs with henough
  · have hnone : ((([] : List PackageFileEntry).map PackageFileEntry.sizeBytes).sum : ℤ) = 0 := rfl
    constructor
    · intro h
      have hreclaim : max 0 free + 0 < max 0 (inputs.size + 64 * 1024 * 1024) := h
      omega
    · intro h
      have := h [] List.nil_prefix
      omega
  · exact takeEntries_short_iff _ _ _

/-- The commands for a storage whose listing can be read. -/
theorem storageCommands_of_read {inputs : CleanupInputs} {label storage : String} {free : ℤ}
    {entries : List PackageFileEntry}
    (hfree : parseFreeSpaceBytes (storageOutput inputs.output storage) = .ok free)
    (hentries : parseDirEntries (storageOutput inputs.output storage) storage = .ok entries) :
    inputs.storageCommands (label, storage) =
      let plan := buildCleanupPlan storage free inputs.size entries inputs.kept inputs.name
      if !plan.hasEnoughSpace then
        .error (.execution "insufficient_space"
          (label ++ " storage is insufficient for the package.") "deterministic")
      else if plan.deleteEntries.map PackageFileEntry.path ≠ [] ∧ !inputs.autoDelete then
        .error (.execution "cleanup_required"
          (label ++ " storage requires cleanup before transfer.") "deterministic")
      else .ok ((plan.deleteEntries.map PackageFileEntry.path).map cleanupCommand) := by
  unfold storageCommands plan driverCleanupPlan
  rw [hfree, hentries]
  rfl

/-- A listing that cannot be read raises an error of Python. -/
theorem storageCommands_cases (label storage : String) :
    (∃ free entries, parseFreeSpaceBytes (storageOutput inputs.output storage) = .ok free ∧
      parseDirEntries (storageOutput inputs.output storage) storage = .ok entries) ∨
      ∃ e, inputs.storageCommands (label, storage) = .error (.python e) := by
  cases hfree : parseFreeSpaceBytes (storageOutput inputs.output storage) with
  | error e =>
    refine .inr ⟨e, ?_⟩
    unfold storageCommands plan driverCleanupPlan
    rw [hfree]
    rfl
  | ok free =>
    cases hentries : parseDirEntries (storageOutput inputs.output storage) storage with
    | error e =>
      refine .inr ⟨e, ?_⟩
      unfold storageCommands plan driverCleanupPlan
      rw [hfree, hentries]
      rfl
    | ok entries => exact .inl ⟨free, entries, rfl, rfl⟩

/-- A storage raises `insufficient_space` when it is short, whichever of its old packages go. -/
theorem insufficient_iff (label storage : String) (hsize : 0 < inputs.size + 64 * 1024 * 1024) :
    inputs.storageCommands (label, storage) = .error (.execution "insufficient_space"
      (label ++ " storage is insufficient for the package.") "deterministic") ↔
      inputs.Short storage := by
  have hmax : max 0 (inputs.size + 64 * 1024 * 1024) = inputs.size + 64 * 1024 * 1024 := by omega
  constructor
  · intro h
    rcases storageCommands_cases inputs label storage with
      ⟨free, entries, hfree, hentries⟩ | ⟨e, he⟩
    · refine ⟨free, entries, hfree, hentries, .inr ?_⟩
      rw [← hmax]
      refine (not_hasEnoughSpace_iff inputs storage free entries).mp ?_
      rw [storageCommands_of_read hfree hentries] at h
      dsimp only at h
      split_ifs at h with hshort hremove
      · simpa using hshort
      · simp at h
    · rw [he] at h
      cases h
  · rintro ⟨free, entries, hfree, hentries, hshort⟩
    have hfalse := (not_hasEnoughSpace_iff inputs storage free entries).mpr
      (by rw [hmax]; exact hshort.resolve_left (by omega))
    rw [storageCommands_of_read hfree hentries]
    exact if_pos (by rw [hfalse]; rfl)

/-- Where no space is required, a listing that can be read has enough of it. -/
theorem nothing_iff (label storage : String) (hsize : inputs.size + 64 * 1024 * 1024 ≤ 0) :
    inputs.storageCommands (label, storage) = .ok [] ↔ inputs.Short storage := by
  have hmax : max 0 (inputs.size + 64 * 1024 * 1024) = 0 := by omega
  constructor
  · intro h
    rcases storageCommands_cases inputs label storage with
      ⟨free, entries, hfree, hentries⟩ | ⟨e, he⟩
    · exact ⟨free, entries, hfree, hentries, .inl hsize⟩
    · rw [he] at h
      cases h
  · rintro ⟨free, entries, hfree, hentries, -⟩
    have hplan : (buildCleanupPlan storage free inputs.size entries inputs.kept
        inputs.name).deleteEntries = [] := by
      unfold buildCleanupPlan
      dsimp only
      rw [if_pos (by omega)]
    have henough : (buildCleanupPlan storage free inputs.size entries inputs.kept
        inputs.name).hasEnoughSpace = true := by
      by_contra hshort
      have := (not_hasEnoughSpace_iff inputs storage free entries).mp
        (by simpa using hshort) [] List.nil_prefix
      simp only [List.map_nil, List.sum_nil] at this
      omega
    rw [storageCommands_of_read hfree hentries]
    dsimp only
    rw [henough, hplan]
    rfl

end CleanupInputs

/-- Without an output, a storage is empty and has no space. -/
theorem short_blank (w : StorageInputs) (size : ℤ) (startup storage : String) :
    (w.cleanupInputs size "" startup).Short storage := by
  have hblank : storageOutput "" storage = "" := by
    unfold storageOutput directoryResponse?
    dsimp only
    split
    · rfl
    · rename_i start hstart
      show slice "" start _ = ""
      unfold slice
      split <;> simp
  refine ⟨0, [], ?_, ?_, ?_⟩
  · show parseFreeSpaceBytes (storageOutput "" storage) = _
    rw [hblank]
    rfl
  · show parseDirEntries (storageOutput "" storage) storage = _
    rw [hblank]
    rfl
  · rcases le_or_gt (size + 64 * 1024 * 1024) 0 with hle | hlt
    · exact .inl hle
    · refine .inr fun taken htaken => ?_
      rw [List.prefix_nil.mp htaken]
      show max 0 0 + 0 < size + 64 * 1024 * 1024
      omega

/-! ## The theorem -/

/-- The commands of a short storage are the same whatever its output is; and those of any other are
not. -/
theorem storageCommands_eq_blank_iff (w : StorageInputs) (size : ℤ)
    (output startup startup' label storage : String) :
    (w.cleanupInputs size "" startup').storageCommands (label, storage) =
        (w.cleanupInputs size output startup).storageCommands (label, storage) ↔
      (w.cleanupInputs size output startup).Short storage := by
  rcases le_or_gt (size + 64 * 1024 * 1024) 0 with hle | hlt
  · rw [(CleanupInputs.nothing_iff (w.cleanupInputs size "" startup') label storage
      hle).mpr (short_blank w size startup' storage), eq_comm]
    exact CleanupInputs.nothing_iff (w.cleanupInputs size output startup) label storage hle
  · rw [(CleanupInputs.insufficient_iff (w.cleanupInputs size "" startup') label storage
      hlt).mpr (short_blank w size startup' storage), eq_comm]
    exact CleanupInputs.insufficient_iff (w.cleanupInputs size output startup) label
      storage hlt

/-- After the decision, the storages are reached with the details of the probe's error, in which
there is no output. -/
theorem continueSingle_eq {transfers : Transfers} {w : StorageInputs} {run : WorkflowRun}
    {data : Dict String Value} {standby : Except DeviceException (Dict String Value)}
    (h : Indeterminate transfers w data standby) :
    continueSingle transfers w run (.ok data) standby =
      .reached ((w.packageSize transfers).bind fun size =>
        (w.cleanupInputs size "" "").storageCommands
          ("master", Value.strOr (some (.str w.masterStorage)) defaultMasterStorage)) (.ok []) := by
  obtain ⟨collected, facts, hcollected, hfacts, hmode⟩ := h
  have htopology := topologyFacts_of_probeFacts hfacts
  have hprobe : probe transfers (w.precheckParams "auto") (.ok data) standby =
      .error (.workflow {
        code := "topology_indeterminate"
        message := "无法根据设备角色和备控存储证据确认双主控拓扑。"
        errorClass := "ambiguous"
        details := facts }) := by
    rw [probe_answered, hcollected]
    dsimp only [Except.bind]
    rw [hfacts]
    dsimp only [liftDevice]
    rw [if_pos hmode]
  -- The error has only the facts for its details, and none of them is an output.
  have houtput (key : String) (hkey : key ∉ factKeys) : facts.get? key = none :=
    (Dict.get?_eq_none_iff facts key).mpr fun hmem => hkey (htopology.keys key hmem)
  have hslave : (topologyDetection collected (w.precheckParams "auto")).get? "include_slave" =
      some (.bool false) := by
    unfold topologyDetection
    rw [hmode]
    rfl
  have houtputs : (vendorActivity "device.probe"
      (probe transfers (w.precheckParams "auto") (.ok data) standby)).outputs = facts := by
    rw [hprobe]
    rfl
  have hget (key : String) (hkey : key ∉ ["error", "operation_id", "evidence"]) :=
    get?_actionResult (vendorActivity "device.probe"
      (probe transfers (w.precheckParams "auto") (.ok data) standby)) key hkey
  rw [houtputs] at hget
  have hdetection := (hget "topology_detection" (by decide)).trans htopology.topology
  have hnone := (hget "output" (by decide)).trans (houtput "output" (by decide))
  have hstartup := (hget "startup_output" (by decide)).trans (houtput "startup_output" (by decide))
  have hrecorded := facts_prechecked run
    (probe transfers (w.precheckParams "auto") (.ok data) standby)
    (by rw [houtputs]; exact htopology.topology)
  unfold continueSingle reachStorages
  rw [cleanupCommands_single hrecorded hdetection hslave, syncCommands_single hrecorded hdetection
    hslave, hnone, hstartup]
  rfl

theorem effectiveMode_single (hfold : PyLib.casefold "single" = "single") {w : StorageInputs}
    {data : Dict String Value} :
    effectiveMode data (w.precheckParams "single") = .singleController :=
  if_pos (.inl hfold)

/-- With the policy `single`, the probe asks no more, and returns if it can read the package's
entry. -/
theorem probe_single (hfold : PyLib.casefold "single" = "single") {transfers : Transfers}
    {w : StorageInputs} {data : Dict String Value} :
    ((¬∃ facts, probePackage transfers data (w.precheckParams "single") ∅ = .ok facts) →
      ∃ e, ∀ standby, probe transfers (w.precheckParams "single") (.ok data) standby = .error e) ∧
    ((∃ facts, probePackage transfers data (w.precheckParams "single") ∅ = .ok facts) →
      ∃ facts, ∀ standby, probe transfers (w.precheckParams "single") (.ok data) standby =
          .ok (data.merge facts) ∧
        TopologyFacts facts (topologyDetection data (w.precheckParams "single"))) := by
  have hstandby (standby : Except DeviceException (Dict String Value)) :
      probeStandby data (w.precheckParams "single") standby = .ok data := if_pos (.inl hfold)
  have hmode : effectiveMode data (w.precheckParams "single") ≠ .indeterminate := by
    rw [effectiveMode_single hfold]
    decide
  have hstep (standby : Except DeviceException (Dict String Value)) :
      probe transfers (w.precheckParams "single") (.ok data) standby =
        (liftDevice (probeFacts transfers data (w.precheckParams "single"))).bind fun facts =>
          .ok (data.merge facts) := by
    rw [probe_answered, hstandby]
    simp only [Except.bind, if_neg hmode]
  cases hfacts : probeFacts transfers data (w.precheckParams "single") with
  | error e =>
    constructor
    · intro _
      refine ⟨.other e.text, fun standby => ?_⟩
      rw [hstep, hfacts]
      rfl
    · intro h
      obtain ⟨facts, hsome⟩ := probeFacts_returns_iff.mpr h
      cases hsome.symm.trans hfacts
  | ok facts =>
    constructor
    · intro h
      exact absurd (probeFacts_returns_iff.mp ⟨facts, hfacts⟩) h
    · intro _
      refine ⟨facts, fun standby => ⟨?_, topologyFacts_of_probeFacts hfacts⟩⟩
      rw [hstep, hfacts]
      rfl

/-- With the policy `single`, the probe returns whenever the package's entry can be read, and the
storages are reached with the device's output. -/
theorem runSingle_eq (hfold : PyLib.casefold "single" = "single") {transfers : Transfers}
    {w : StorageInputs} {run : WorkflowRun} {data : Dict String Value}
    {standby : Except DeviceException (Dict String Value)}
    (h : ∃ facts, probePackage transfers data (w.precheckParams "single") ∅ = .ok facts) :
    runSingle transfers w run (.ok data) standby =
      .reached ((w.packageSize transfers).bind fun size =>
        (w.cleanupInputs size (Value.strOr (data.get? "output") "")
          (Value.strOr (data.get? "startup_output")
            (Value.strOr (data.get? "output") ""))).storageCommands
          ("master", Value.strOr (some (.str w.masterStorage)) defaultMasterStorage)) (.ok []) := by
  obtain ⟨facts, hfacts⟩ := (probe_single hfold).2 h
  obtain ⟨hprobe, htopology⟩ := hfacts standby
  have hout (key : String) (hkey : key ∉ factKeys) : (data.merge facts).get? key = data.get? key :=
    Dict.get?_merge_of_not_mem data facts fun hmem => hkey (htopology.keys key hmem)
  have hdetected := Dict.get?_merge_of_get? data htopology.nodup htopology.topology
  have hslave : (topologyDetection data (w.precheckParams "single")).get? "include_slave" =
      some (.bool false) := by
    unfold topologyDetection
    rw [effectiveMode_single hfold]
    rfl
  have hget (key : String) (hkey : key ∉ ["error", "operation_id", "evidence"]) :
      (actionResult (vendorActivity "device.probe" (.ok (data.merge facts)))).facts.get? key =
        (data.merge facts).get? key := get?_actionResult _ key hkey
  have hrecorded := facts_prechecked run (.ok (data.merge facts)) hdetected
  have hdetection := (hget "topology_detection" (by decide)).trans hdetected
  unfold runSingle
  rw [hprobe]
  dsimp only
  unfold reachStorages
  rw [cleanupCommands_single hrecorded hdetection hslave, syncCommands_single hrecorded hdetection
    hslave, hget "output" (by decide), hget "startup_output" (by decide),
    hout "output" (by decide), hout "startup_output" (by decide)]

theorem runSingle_stopped (hfold : PyLib.casefold "single" = "single") {transfers : Transfers}
    {w : StorageInputs} {run : WorkflowRun} {data : Dict String Value}
    {standby : Except DeviceException (Dict String Value)}
    (h : ¬∃ facts, probePackage transfers data (w.precheckParams "single") ∅ = .ok facts) :
    runSingle transfers w run (.ok data) standby = .stopped := by
  obtain ⟨e, he⟩ := (probe_single hfold).1 h
  unfold runSingle
  rw [he standby]

/-- The decision to continue as with a single controller does what the policy `single` does just
where the master storage has no room for the package anyway. -/
theorem continueSingle_iff (hfold : PyLib.casefold "single" = "single") (transfers : Transfers)
    (w : StorageInputs) (run : WorkflowRun) (data : Dict String Value)
    (standby : Except DeviceException (Dict String Value))
    (h : Indeterminate transfers w data standby) :
    continueSingle transfers w run (.ok data) standby =
        runSingle transfers w run (.ok data) standby ↔
      ShortAnyway transfers w data := by
  rw [continueSingle_eq h]
  by_cases hprobe : ∃ facts, probePackage transfers data (w.precheckParams "single") ∅ = .ok facts
  · rw [runSingle_eq hfold hprobe, StorageOutcome.reached.injEq, ShortAnyway]
    cases hsize : w.packageSize transfers with
    | error e => simpa [Except.bind, hsize] using hprobe
    | ok size =>
      have hiff := storageCommands_eq_blank_iff w size (Value.strOr (data.get? "output") "")
        (Value.strOr (data.get? "startup_output") (Value.strOr (data.get? "output") "")) ""
        "master" (Value.strOr (some (.str w.masterStorage)) defaultMasterStorage)
      dsimp only [Except.bind]
      rw [hiff]
      constructor
      · intro heq
        refine ⟨hprobe, fun size' hsize' => ?_⟩
        cases hsize'
        exact heq.1
      · intro hshort
        exact ⟨hshort.2 size rfl, rfl⟩
  · rw [runSingle_stopped hfold hprobe, ShortAnyway]
    constructor
    · intro heq
      cases heq
    · intro hshort
      exact absurd hshort.1 hprobe

/-! ## A device that says nothing of its boards -/

/-- An upgrade with a package that is on the device. -/
def onDeviceInputs : StorageInputs where
  package := "target.cc"
  packageSource := "device"
  autoClean := false
  masterStorage := "flash:/"
  slaveStorage := "slave#flash:/"
  driverId := "auto"

/-- What the precheck returns for an output. -/
def precheckData (output : String) : Dict String Value :=
  ⟨[("status", .str "completed"), ("output", .str output)]⟩

/-- The run of the upgrade. -/
def upgradeRun : WorkflowRun where
  id := "run"
  workflowId := "network.package_upgrade"
  workflowVersion := "1"
  deviceId := "device"

omit [PyLib] [PyText] in
/-- The probe looks for no package that is on the device already. -/
theorem probePackage_onDevice (data : Dict String Value) (policy : String) :
    letI := PyLib.decimal; letI := PyText.ascii
    probePackage none data (onDeviceInputs.precheckParams policy) ∅ = .ok ∅ := by
  let := PyLib.decimal
  let := PyText.ascii
  have hlocal : localPackage? (onDeviceInputs.precheckParams policy) = none := by
    have hsource : PyLib.casefold (Value.strOr (some (.str "device")) "local") ≠ "local" := by
      decide +kernel
    exact if_neg fun h => hsource h.2
  unfold probePackage
  rw [hlocal]

omit [PyLib] [PyText] in
/-- The topology of such an output is indeterminate. -/
theorem indeterminate_bytesFree (output : String)
    (houtput : output = "1000 bytes free" ∨ output = "900000000 bytes free") :
    letI := PyLib.decimal; letI := PyText.ascii
    Indeterminate none onDeviceInputs (precheckData output) (.ok ∅) := by
  let := PyLib.decimal
  let := PyText.ascii
  have hclassify : classifyControllerTopology (Value.strOr ((precheckData output).get? "output") "") =
      .indeterminate := by
    rcases houtput with rfl | rfl <;> decide +kernel
  have hpolicy : topologyPolicy (onDeviceInputs.precheckParams "auto") ≠ "single" := by
    decide +kernel
  obtain ⟨facts, hfacts⟩ := probeFacts_returns_iff.mpr
    ⟨∅, probePackage_onDevice (precheckData output) "auto"⟩
  refine ⟨precheckData output, facts, ?_, hfacts, ?_⟩
  · have hunprobed : classifyControllerTopology
        (Value.strOr ((precheckData output).get? "output") "") ≠ .dual := by
      rw [hclassify]
      decide
    unfold probeStandby
    rw [if_pos (.inr hunprobed)]
  · unfold effectiveMode
    rw [hclassify]
    dsimp only
    rw [if_neg (by simpa using hpolicy), if_neg fun h => by cases h.1]

omit [PyLib] [PyText] in
/-- With some bytes free, the decision does what the policy does. -/
theorem continueSingle_fullDevice : letI := PyLib.decimal; letI := PyText.ascii
    continueSingle none onDeviceInputs upgradeRun (.ok (precheckData "1000 bytes free")) (.ok ∅) =
      runSingle none onDeviceInputs upgradeRun (.ok (precheckData "1000 bytes free")) (.ok ∅) := by
  let := PyLib.decimal
  let := PyText.ascii
  have hfree : parseFreeSpaceBytes (storageOutput "1000 bytes free" "flash:/") = .ok 1000 := by
    decide +kernel
  have hentries : parseDirEntries (storageOutput "1000 bytes free" "flash:/") "flash:/" =
      .ok [] := by
    decide +kernel
  refine (continueSingle_iff (by decide +kernel) none onDeviceInputs upgradeRun _ _
    (indeterminate_bytesFree _ (.inl rfl))).mpr ⟨?_, fun size hsize => ?_⟩
  · exact ⟨∅, probePackage_onDevice _ "single"⟩
  · obtain rfl : 0 = size := by
      have hnone : onDeviceInputs.packageSize none = .ok 0 := by decide +kernel
      cases hnone.symm.trans hsize
      rfl
    refine ⟨1000, [], hfree, hentries, .inr fun taken htaken => ?_⟩
    rw [List.prefix_nil.mp htaken]
    decide

omit [PyLib] [PyText] in
/-- With room enough, the decision ends at `insufficient_space`, and the policy does not. -/
theorem not_continueSingle_emptyDevice : letI := PyLib.decimal; letI := PyText.ascii
    ¬∀ (transfers : Transfers) (w : StorageInputs) (run : WorkflowRun) (data : Dict String Value)
      (standby : Except DeviceException (Dict String Value)),
      Indeterminate transfers w data standby →
        continueSingle transfers w run (.ok data) standby =
          runSingle transfers w run (.ok data) standby := by
  let := PyLib.decimal
  let := PyText.ascii
  intro hall
  have heq := hall none onDeviceInputs upgradeRun (precheckData "900000000 bytes free") (.ok ∅)
    (indeterminate_bytesFree _ (.inr rfl))
  revert heq
  decide +kernel

end DeviceShell.Huawei
