import DeviceShell.Lib.Operators
import DeviceShell.Lib.Text

/-!
# Package files and the cleanup policy

`domain/package_upgrade.py`: the files that a storage listing shows, what a device reports about its
startup software, and `build_cleanup_plan`, which chooses the old packages to delete: the largest
first, until the new package and the reserve fit.
-/

namespace DeviceShell.Huawei

variable [PyLib]

/-- `DEFAULT_MASTER_STORAGE`. -/
def defaultMasterStorage : String := "flash:/"

/-- `DEFAULT_SLAVE_STORAGE`. -/
def defaultSlaveStorage : String := "slave#flash:/"

/-- `CC_SUFFIX`. -/
def ccSuffix : String := ".cc"

/-- `StartupInfo`. -/
structure StartupInfo where
  currentSystem : String := ""
  nextSystem : String := ""
deriving DecidableEq, Repr

/-- `PackageFileEntry`. -/
structure PackageFileEntry where
  path : String
  name : String
  sizeBytes : ℤ
  storage : String := defaultMasterStorage
  modifiedText : String := ""
deriving DecidableEq, Repr

/-- `CleanupPlan`. -/
structure CleanupPlan where
  storage : String
  requiredBytes : ℤ
  freeBytes : ℤ
  targetBytes : ℤ
  deleteEntries : List PackageFileEntry := []
  protectedPaths : List String := []
deriving DecidableEq, Repr

/-- `CleanupPlan.reclaim_bytes`. -/
def CleanupPlan.reclaimBytes (plan : CleanupPlan) : ℤ :=
  (plan.deleteEntries.map PackageFileEntry.sizeBytes).sum

/-- `CleanupPlan.has_enough_space`. -/
def CleanupPlan.hasEnoughSpace (plan : CleanupPlan) : Bool :=
  plan.freeBytes + plan.reclaimBytes ≥ plan.requiredBytes

/-- `normalize_storage`. -/
def normalizeStorage (value : String) : String :=
  let storage := if strip value = "" then defaultMasterStorage else strip value
  if endsWith storage "/" then storage else storage ++ "/"

/-- `join_storage_path`. -/
def joinStoragePath (storage filename : String) : String :=
  normalizeStorage storage ++ posixName filename

/-- `package_basename`. -/
def packageBasename (value : String) : String :=
  PyLib.casefold (afterLast '/' (replaceChar '\\' '/' (strip value)))

/-- `normalize_package_path`. -/
def normalizePackagePath (value : String) : String :=
  PyLib.casefold (replaceChar '\\' '/' (strip value))

/-- `_protected_package_paths`; the set as a list. -/
def protectedPackagePaths (startup : StartupInfo) (targetPackageName storage : String)
    (protectedNames : List String) : List String :=
  ([normalizePackagePath startup.currentSystem, normalizePackagePath startup.nextSystem,
      normalizePackagePath (joinStoragePath storage targetPackageName),
      packageBasename startup.currentSystem, packageBasename startup.nextSystem,
      packageBasename targetPackageName] ++
    (protectedNames.filter fun name => strip name ≠ "").map packageBasename).filter
      fun path => path ≠ ""

/-- `_can_delete_package`. -/
def canDeletePackage (protected_ : List String) (targetPackageName : String)
    (entry : PackageFileEntry) : Bool :=
  if !endsWith (PyLib.casefold entry.name) ccSuffix then false
  else if packageBasename entry.name = packageBasename targetPackageName then false
  else normalizePackagePath entry.path ∉ protected_ ∧ packageBasename entry.name ∉ protected_

/-- The order of the candidates: by `(-size_bytes, name.casefold())`. -/
def sortsBefore (a b : PackageFileEntry) : Prop :=
  a.sizeBytes > b.sizeBytes ∨ a.sizeBytes = b.sizeBytes ∧
    textLt (PyLib.casefold b.name).toList (PyLib.casefold a.name).toList = false

instance : DecidableRel sortsBefore := fun a b =>
  inferInstanceAs (Decidable (a.sizeBytes > b.sizeBytes ∨ a.sizeBytes = b.sizeBytes ∧
    textLt (PyLib.casefold b.name).toList (PyLib.casefold a.name).toList = false))

/-- The candidates of `build_cleanup_plan`, sorted. -/
def sortedCandidates (entries : List PackageFileEntry) (protected_ : List String)
    (targetPackageName : String) : List PackageFileEntry :=
  (entries.filter (canDeletePackage protected_ targetPackageName)).insertionSort sortsBefore

/-- The loop of `build_cleanup_plan`: the entries it takes until enough is available. -/
def takeEntries (required : ℤ) : ℤ → List PackageFileEntry → List PackageFileEntry
  | _, [] => []
  | available, entry :: rest =>
    if available ≥ required then [] else entry :: takeEntries required (available + entry.sizeBytes) rest

/-- `build_cleanup_plan`. -/
def buildCleanupPlan (storage : String) (freeBytes targetBytes : ℤ)
    (entries : List PackageFileEntry) (startup : StartupInfo) (targetPackageName : String)
    (reserveBytes : ℤ := 64 * 1024 * 1024) (protectedNames : List String := []) : CleanupPlan :=
  let required := max 0 (targetBytes + reserveBytes)
  let protected_ := protectedPackagePaths startup targetPackageName storage protectedNames
  let plan : CleanupPlan :=
    { storage := normalizeStorage storage
      requiredBytes := required
      freeBytes := max 0 freeBytes
      targetBytes := max 0 targetBytes
      protectedPaths := protected_ }
  if plan.freeBytes ≥ required then plan
  else { plan with
    deleteEntries := takeEntries required plan.freeBytes
      (sortedCandidates entries protected_ targetPackageName) }

omit [PyLib]

/-- A storage that is not blank in its normal form. -/
theorem normalizeStorage_of_slash {s : String} (hstrip : strip s = s) (hend : endsWith s "/" = true)
    (hne : s ≠ "") : normalizeStorage s = s := by
  rw [normalizeStorage, hstrip, if_neg hne, if_pos hend]

/-- A normalised storage is its own normal form. -/
theorem normalizeStorage_normalizeStorage (s : String) :
    normalizeStorage (normalizeStorage s) = normalizeStorage s := by
  have hdefault : normalizeStorage defaultMasterStorage = defaultMasterStorage := by
    decide +kernel
  by_cases hblank : strip s = ""
  · have hs : normalizeStorage s = defaultMasterStorage := by
      rw [normalizeStorage, if_pos hblank]
      exact if_pos (by decide +kernel)
    rw [hs, hdefault]
  · have hs : normalizeStorage s = if endsWith (strip s) "/" then strip s else strip s ++ "/" := by
      rw [normalizeStorage, if_neg hblank]
    rw [hs]
    split_ifs with hend
    · exact normalizeStorage_of_slash (strip_strip s) hend hblank
    · have hone : ("/" : String) = String.singleton '/' := by decide
      have hstrip : strip (strip s ++ "/") = strip s ++ "/" := by
        rw [hone]
        exact strip_push s (by decide)
      refine normalizeStorage_of_slash hstrip ?_ ?_
      · simp [endsWith]
      · intro h
        have := congrArg String.length h
        simp at this

/-- What the loop takes is what stands in the list while all that stands before it is not enough. -/
theorem mem_takeEntries {required : ℤ} {e : PackageFileEntry} :
    ∀ {available : ℤ} {entries : List PackageFileEntry},
      e ∈ takeEntries required available entries ↔
        ∃ before after, entries = before ++ e :: after ∧
          ∀ taken, taken <+: before →
            available + (taken.map PackageFileEntry.sizeBytes).sum < required
  | available, [] => by simp [takeEntries]
  | available, entry :: rest => by
    rw [takeEntries]
    split_ifs with henough
    · constructor
      · intro h
        cases h
      · rintro ⟨before, after, -, h⟩
        have := h [] List.nil_prefix
        simp only [List.map_nil, List.sum_nil] at this
        omega
    · rw [List.mem_cons, mem_takeEntries]
      constructor
      · rintro (rfl | ⟨before, after, rfl, h⟩)
        · refine ⟨[], rest, rfl, fun taken htaken => ?_⟩
          rw [List.prefix_nil.mp htaken]
          simp only [List.map_nil, List.sum_nil]
          omega
        · refine ⟨entry :: before, after, rfl, fun taken htaken => ?_⟩
          rcases List.prefix_cons_iff.mp htaken with rfl | ⟨front, rfl, hfront⟩
          · simp only [List.map_nil, List.sum_nil]
            omega
          · have := h front hfront
            simp only [List.map_cons, List.sum_cons]
            omega
      · rintro ⟨before, after, hsplit, h⟩
        cases before with
        | nil => exact .inl (List.cons.inj hsplit).1.symm
        | cons first before =>
          obtain ⟨rfl, rfl⟩ := List.cons.inj hsplit
          refine .inr ⟨before, after, rfl, fun taken htaken => ?_⟩
          have := h (entry :: taken) (List.cons_prefix_cons.mpr ⟨rfl, htaken⟩)
          simp only [List.map_cons, List.sum_cons] at this
          omega

end DeviceShell.Huawei
