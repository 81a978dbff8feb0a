import DeviceShell.Huawei.Package
import Mathlib.Data.List.Sort

/-!
# Which packages a cleanup plan deletes

What `build_cleanup_plan` of `domain/package_upgrade.py` promises (`buildCleanupPlan_correct`): it
deletes old packages only, nothing where the space suffices already, and otherwise the shortest list
of the largest packages that makes enough space; where no such list does, it deletes all of them.

An entry is a startup image when the paths or the names are the same. A protected name protects by
its last part only, so an entry whose path and name disagree may be deleted although its path is a
protected one (`not_protected_byPath`).
-/

namespace DeviceShell.Huawei

variable [PyLib]

namespace PackageFileEntry

/-- Whether an entry has the path that a text gives, if the text gives one. -/
def HasPath (entry : PackageFileEntry) (value : String) : Prop :=
  normalizePackagePath value ≠ "" ∧ normalizePackagePath entry.path = normalizePackagePath value

/-- Whether an entry has the name that is the last part of a text, if it has one. -/
def HasName (entry : PackageFileEntry) (value : String) : Prop :=
  strip value ≠ "" ∧ packageBasename value ≠ "" ∧
    packageBasename entry.name = packageBasename value

end PackageFileEntry

/-- A file that may be deleted for a new package. -/
structure IsOldPackage (startup : StartupInfo) (targetPackageName storage : String)
    (protectedNames : List String) (entry : PackageFileEntry) : Prop where
  package : endsWith (PyLib.casefold entry.name) ccSuffix = true
  notCurrent : ¬entry.HasPath startup.currentSystem ∧ ¬entry.HasName startup.currentSystem
  notNext : ¬entry.HasPath startup.nextSystem ∧ ¬entry.HasName startup.nextSystem
  notTarget : ¬entry.HasPath (joinStoragePath storage targetPackageName) ∧
    packageBasename entry.name ≠ packageBasename targetPackageName
  notProtected : ∀ name ∈ protectedNames, ¬entry.HasName name

/-- What may be deleted is an old package. -/
theorem isOldPackage_of_canDelete {startup : StartupInfo} {targetPackageName storage : String}
    {protectedNames : List String} {entry : PackageFileEntry}
    (h : canDeletePackage (protectedPackagePaths startup targetPackageName storage protectedNames)
      targetPackageName entry = true) :
    IsOldPackage startup targetPackageName storage protectedNames entry := by
  unfold canDeletePackage at h
  split at h
  · exact absurd h (by simp)
  rename_i hpackage
  split at h
  · exact absurd h (by simp)
  rename_i htarget
  rw [decide_eq_true_iff] at h
  have hpath : ∀ value, normalizePackagePath value ∈
      [normalizePackagePath startup.currentSystem, normalizePackagePath startup.nextSystem,
        normalizePackagePath (joinStoragePath storage targetPackageName)] →
      ¬entry.HasPath value := by
    rintro value hmem ⟨hne, heq⟩
    apply h.1
    rw [heq]
    exact List.mem_filter.mpr
      ⟨List.mem_append_left _ (List.mem_append_left _ hmem), decide_eq_true hne⟩
  have hname : ∀ value, packageBasename value ∈
      [packageBasename startup.currentSystem, packageBasename startup.nextSystem] ∨
      value ∈ protectedNames → ¬entry.HasName value := by
    rintro value hmem ⟨hstrip, hne, heq⟩
    apply h.2
    rw [heq]
    refine List.mem_filter.mpr ⟨?_, decide_eq_true hne⟩
    rcases hmem with hmem | hmem
    · have hright := List.mem_append_right [normalizePackagePath startup.currentSystem,
        normalizePackagePath startup.nextSystem,
        normalizePackagePath (joinStoragePath storage targetPackageName)]
        (List.mem_append_left [packageBasename targetPackageName] hmem)
      exact List.mem_append_left _ hright
    · refine List.mem_append_right _ (List.mem_map_of_mem ?_)
      exact List.mem_filter.mpr ⟨hmem, decide_eq_true hstrip⟩
  constructor
  · simpa using hpackage
  · exact ⟨hpath _ List.mem_cons_self, hname _ (.inl List.mem_cons_self)⟩
  · exact ⟨hpath _ (List.mem_cons_of_mem _ List.mem_cons_self),
      hname _ (.inl (List.mem_cons_of_mem _ List.mem_cons_self))⟩
  · exact ⟨hpath _ (List.mem_cons_of_mem _ (List.mem_cons_of_mem _ List.mem_cons_self)), htarget⟩
  · exact fun name hmem => hname name (.inr hmem)

/-! ## The order of the candidates -/

/-- The candidates stand by their sizes, the largest first. -/
theorem pairwise_insertionSort (entries : List PackageFileEntry) :
    (entries.insertionSort sortsBefore).Pairwise fun a b => b.sizeBytes ≤ a.sizeBytes := by
  have hinsert : ∀ (entry : PackageFileEntry) (sorted : List PackageFileEntry),
      sorted.Pairwise (fun a b => b.sizeBytes ≤ a.sizeBytes) →
      (sorted.orderedInsert sortsBefore entry).Pairwise fun a b => b.sizeBytes ≤ a.sizeBytes := by
    intro entry sorted hsorted
    induction sorted with
    | nil => simp
    | cons first rest ih =>
      rw [List.pairwise_cons] at hsorted
      rw [List.orderedInsert_cons]
      by_cases hbefore : sortsBefore entry first
      · have hle : first.sizeBytes ≤ entry.sizeBytes := by
          rcases hbefore with hlt | ⟨heq, -⟩ <;> omega
        rw [if_pos hbefore, List.pairwise_cons, List.pairwise_cons]
        refine ⟨fun other hother => ?_, hsorted⟩
        rcases List.mem_cons.mp hother with rfl | hother
        · exact hle
        · have := hsorted.1 other hother
          omega
      · have hle : entry.sizeBytes ≤ first.sizeBytes := by
          by_contra hlt
          exact hbefore (.inl (by omega))
        rw [if_neg hbefore, List.pairwise_cons]
        refine ⟨fun other hother => ?_, ih hsorted.2⟩
        rcases (List.mem_orderedInsert sortsBefore).mp hother with rfl | hother
        · exact hle
        · exact hsorted.1 other hother
  induction entries with
  | nil => simp
  | cons entry rest ih => exact hinsert entry _ ih

/-! ## The loop -/

omit [PyLib] in
theorem takeEntries_begins (required : ℤ) : ∀ (available : ℤ) (entries : List PackageFileEntry),
    takeEntries required available entries <+: entries
  | available, [] => by simp [takeEntries]
  | available, entry :: rest => by
    rw [takeEntries]
    split_ifs with henough
    · exact List.nil_prefix
    · exact List.cons_prefix_cons.mpr ⟨rfl, takeEntries_begins required _ rest⟩

omit [PyLib] in
/-- The loop takes nothing too many: with one entry less there is not enough. -/
theorem takeEntries_shortest (required : ℤ) :
    ∀ (available : ℤ) (entries shorter : List PackageFileEntry), shorter <+: entries →
      shorter.length < (takeEntries required available entries).length →
      available + (shorter.map PackageFileEntry.sizeBytes).sum < required
  | available, [], shorter, _, hlength => by simp [takeEntries] at hlength
  | available, entry :: rest, shorter, hbegins, hlength => by
    rw [takeEntries] at hlength
    split_ifs at hlength with henough
    · simp at hlength
    · rcases List.prefix_cons_iff.mp hbegins with rfl | ⟨front, rfl, hfront⟩
      · simp only [List.map_nil, List.sum_nil]
        omega
      · simp only [List.length_cons] at hlength
        have hrest := takeEntries_shortest required (available + entry.sizeBytes) rest front hfront
          (by omega)
        simp only [List.map_cons, List.sum_cons]
        omega

omit [PyLib] in
/-- Where the loop does not come to enough, it takes everything. -/
theorem takeEntries_complete (required : ℤ) :
    ∀ (available : ℤ) (entries : List PackageFileEntry),
      available + ((takeEntries required available entries).map PackageFileEntry.sizeBytes).sum <
        required → takeEntries required available entries = entries
  | available, [], _ => by simp [takeEntries]
  | available, entry :: rest, hshort => by
    rw [takeEntries] at hshort ⊢
    split_ifs at hshort ⊢ with henough
    · simp only [List.map_nil, List.sum_nil] at hshort
      omega
    · simp only [List.map_cons, List.sum_cons] at hshort
      have hrest := takeEntries_complete required (available + entry.sizeBytes) rest (by omega)
      rw [hrest]

/-! ## The plan -/

omit [PyLib] in
theorem hasEnoughSpace_eq_false {plan : CleanupPlan} :
    plan.hasEnoughSpace = false ↔ plan.freeBytes + plan.reclaimBytes < plan.requiredBytes := by
  simp [CleanupPlan.hasEnoughSpace]

/-- The entries that may be deleted, the largest first. -/
def deletable (plan : CleanupPlan) (targetPackageName : String)
    (entries : List PackageFileEntry) : List PackageFileEntry :=
  sortedCandidates entries plan.protectedPaths targetPackageName

/-- What a plan that chooses from some entries promises. -/
structure CleanupPlanCorrect (plan : CleanupPlan) (freeBytes targetBytes reserveBytes : ℤ)
    (entries : List PackageFileEntry) (startup : StartupInfo) (targetPackageName storage : String)
    (protectedNames : List String) : Prop where
  /-- What is deleted are old packages. -/
  old : ∀ entry ∈ plan.deleteEntries, entry ∈ entries ∧
    IsOldPackage startup targetPackageName storage protectedNames entry
  /-- Nothing is deleted where the space suffices. -/
  nothing : freeBytes ≥ targetBytes + reserveBytes → plan.deleteEntries = []
  /-- The entries that may be deleted, sorted, are the ones of the listing. -/
  sorted : (deletable plan targetPackageName entries).Perm
      (entries.filter (canDeletePackage plan.protectedPaths targetPackageName)) ∧
    (deletable plan targetPackageName entries).Pairwise fun a b => b.sizeBytes ≤ a.sizeBytes
  largest : plan.deleteEntries <+: deletable plan targetPackageName entries
  /-- No shorter list of the largest would do. -/
  shortest : ∀ shorter, shorter <+: deletable plan targetPackageName entries →
    shorter.length < plan.deleteEntries.length →
    ({ plan with deleteEntries := shorter } : CleanupPlan).hasEnoughSpace = false
  /-- Where there is not enough, nothing more could help. -/
  complete : plan.hasEnoughSpace = false →
    plan.deleteEntries = deletable plan targetPackageName entries ∧
      freeBytes + plan.reclaimBytes < targetBytes + reserveBytes

/-- A cleanup plan deletes the shortest list of the largest old packages that makes enough space. -/
theorem buildCleanupPlan_correct (storage : String) (freeBytes targetBytes : ℤ)
    (entries : List PackageFileEntry) (startup : StartupInfo) (targetPackageName : String)
    (reserveBytes : ℤ) (protectedNames : List String) :
    CleanupPlanCorrect (buildCleanupPlan storage freeBytes targetBytes entries startup
      targetPackageName reserveBytes protectedNames) freeBytes targetBytes reserveBytes entries
      startup targetPackageName storage protectedNames := by
  let paths := protectedPackagePaths startup targetPackageName storage protectedNames
  have hsorted : (sortedCandidates entries paths targetPackageName).Perm
      (entries.filter (canDeletePackage paths targetPackageName)) := List.perm_insertionSort _ _
  have hpairwise : (sortedCandidates entries paths targetPackageName).Pairwise
      fun a b => b.sizeBytes ≤ a.sizeBytes := pairwise_insertionSort _
  have hold : ∀ entry ∈ sortedCandidates entries paths targetPackageName, entry ∈ entries ∧
      IsOldPackage startup targetPackageName storage protectedNames entry := by
    intro entry hmem
    obtain ⟨hentry, hdelete⟩ := List.mem_filter.mp (hsorted.mem_iff.mp hmem)
    exact ⟨hentry, isOldPackage_of_canDelete hdelete⟩
  unfold buildCleanupPlan
  simp only
  split_ifs with henough
  · constructor
    · exact fun entry hmem => absurd hmem (by simp)
    · exact fun _ => rfl
    · exact ⟨hsorted, hpairwise⟩
    · exact List.nil_prefix
    · exact fun shorter _ hlength => absurd hlength (by simp)
    · intro hshort
      rw [hasEnoughSpace_eq_false] at hshort
      simp only [CleanupPlan.reclaimBytes, List.map_nil, List.sum_nil] at hshort
      omega
  · have hbegins := takeEntries_begins (max 0 (targetBytes + reserveBytes)) (max 0 freeBytes)
      (sortedCandidates entries paths targetPackageName)
    constructor
    · exact fun entry hmem => hold entry (hbegins.subset hmem)
    · intro hsuffices
      omega
    · exact ⟨hsorted, hpairwise⟩
    · exact hbegins
    · intro shorter hshorter hlength
      exact hasEnoughSpace_eq_false.mpr (takeEntries_shortest _ _ _ shorter hshorter hlength)
    · intro hshort
      rw [hasEnoughSpace_eq_false] at hshort
      refine ⟨takeEntries_complete _ _ _ hshort, ?_⟩
      simp only [CleanupPlan.reclaimBytes] at hshort ⊢
      omega

omit [PyLib]

/-- An entry whose name is not the last part of its path. -/
def misnamedEntry : PackageFileEntry := { path := "flash:/a.cc", name := "b.cc", sizeBytes := 10 }

/-- A protected name is compared by its last part, so the path that it gives may be deleted. -/
theorem not_protected_byPath : let _ := PyLib.decimal
    ¬∀ entries protectedNames, ∀ entry ∈ (buildCleanupPlan "flash:/" 0 1 entries {} "new.cc" 0
      protectedNames).deleteEntries, ∀ name ∈ protectedNames,
        ¬entry.HasPath name ∧ ¬entry.HasName name := by
  intro pyLib h
  have hdeleted : misnamedEntry ∈ (@buildCleanupPlan PyLib.decimal "flash:/" 0 1 [misnamedEntry] {}
      "new.cc" 0 ["flash:/a.cc"]).deleteEntries := by
    decide +kernel
  refine (h [misnamedEntry] ["flash:/a.cc"] misnamedEntry hdeleted "flash:/a.cc" (by simp)).1 ?_
  constructor
  · decide +kernel
  · rfl

end DeviceShell.Huawei
