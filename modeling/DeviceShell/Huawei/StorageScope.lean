import DeviceShell.Huawei.Probe
import DeviceShell.Lib.Headers

/-!
# Reports in sections, and what is read of a storage

A precheck's output as the device composes it: the directory responses of its storages, each under a
header of its own, with other text in front. `_storage_output` cuts the response of a storage out of
it by the place of its header. `Headed` is when it cuts out the storage's own section, and then the
decisions about the storage depend on nothing else (`results_scoped`).
-/

namespace DeviceShell.Huawei

variable [PyLib]

/-- The beginning of a header, folded. -/
def directoryHeader : List Char := "directory of ".toList

omit [PyLib] in
theorem isHeader_directory : IsHeader directoryHeader where
  ne_nil := by decide
  once := by decide

/-- The characters of a folded text. -/
def folded (s : String) : List Char := (PyLib.casefold s).toList

/-- The directory response of a storage. -/
structure StorageSection where
  storage : String
  /-- What follows the name of the storage. -/
  body : String
  /-- The line of the header ends after the name. -/
  ended : body = "" ∨ startsWith body "\n" = true
  /-- There is no other header in it. -/
  headerFree : HeaderFree directoryHeader (folded (storage ++ body))

/-- The section as it stands in the output. -/
def StorageSection.text (s : StorageSection) : String := "Directory of " ++ (s.storage ++ s.body)

/-- The section is the one of a storage, in any case and with or without slashes at the end. -/
def StorageSection.Names (s : StorageSection) (storage : String) : Prop :=
  PyLib.casefold (rstripChar '/' s.storage) = PyLib.casefold (rstripChar '/' storage)

instance (s : StorageSection) (storage : String) : Decidable (s.Names storage) :=
  inferInstanceAs (Decidable (PyLib.casefold _ = PyLib.casefold _))

/-- The text of sections. -/
def joined : List StorageSection → String
  | [] => ""
  | s :: rest => s.text ++ joined rest

/-- A precheck's output. -/
structure Report where
  preamble : String
  sections : List StorageSection
  headerFree : HeaderFree directoryHeader (folded preamble)

/-- The output as a text. -/
def Report.text (r : Report) : String := r.preamble ++ joined r.sections

/-- A storage's own section: the first under its name. -/
def Report.own? (r : Report) (storage : String) : Option StorageSection :=
  r.sections.find? fun s => s.Names storage

/-- A storage has a section, no earlier one begins with the storage's marker (as one of a storage
does whose name is longer), and folding moves no character up to the section's end. -/
structure Headed (r : Report) (storage : String) (before : List StorageSection)
    (own : StorageSection) (after : List StorageSection) : Prop where
  split : r.sections = before ++ own :: after
  names : own.Names storage
  first : ∀ front s rest, before = front ++ s :: rest →
    startsWith (PyLib.casefold (joined (s :: rest ++ own :: after))) (directoryMarker storage) = false
  start : (folded (r.preamble ++ joined before)).length = (r.preamble ++ joined before).length
  stop : after ≠ [] → (folded own.text).length = own.text.length

/-- What folding does to headers. -/
class LawfulMarker : Prop where
  casefold_append (s t : String) : PyLib.casefold (s ++ t) = PyLib.casefold s ++ PyLib.casefold t
  casefold_header : PyLib.casefold "Directory of " = "directory of "
  casefold_marker : PyLib.casefold "directory of " = "directory of "

section

variable [LawfulMarker]

theorem folded_append (s t : String) : folded (s ++ t) = folded s ++ folded t := by
  unfold folded
  rw [LawfulMarker.casefold_append, String.toList_append]

omit [LawfulMarker] in
theorem startsWith_folded {s front : String} :
    startsWith (PyLib.casefold s) front = true ↔ front.toList <+: folded s :=
  List.isPrefixOf_iff_prefix

theorem folded_empty : folded "" = [] := by
  have h := congrArg List.length (folded_append "" "")
  rw [String.append_empty, List.length_append] at h
  exact List.eq_nil_of_length_eq_zero (by omega)

theorem folded_text (s : StorageSection) :
    folded s.text = directoryHeader ++ folded (s.storage ++ s.body) := by
  rw [StorageSection.text, folded_append, folded, LawfulMarker.casefold_header]
  rfl

theorem toList_directoryMarker (storage : String) :
    (directoryMarker storage).toList = directoryHeader ++ folded (rstripChar '/' storage) := by
  rw [directoryMarker, LawfulMarker.casefold_append, LawfulMarker.casefold_marker,
    String.toList_append]
  rfl

omit [PyLib] [LawfulMarker] in
/-- Stripping slashes takes them off the end. -/
theorem rstripChar_append (a : Char) (s : String) : ∃ t, s = rstripChar a s ++ t := by
  obtain ⟨front, hfront⟩ := List.dropWhile_suffix (l := s.toList.reverse) fun c => decide (c = a)
  refine ⟨String.ofList front.reverse, String.toList_injective ?_⟩
  rw [String.toList_append, rstripChar, String.toList_ofList, String.toList_ofList,
    ← List.reverse_append, hfront, List.reverse_reverse]

/-- The folded section of a storage begins with the marker, and has no header after it. -/
theorem folded_text_of_names {s : StorageSection} {storage : String} (h : s.Names storage) :
    ∃ rest, folded s.text = (directoryMarker storage).toList ++ rest ∧
      HeaderFree directoryHeader rest := by
  obtain ⟨slashes, hslashes⟩ := rstripChar_append '/' s.storage
  have hname : folded (rstripChar '/' s.storage) = folded (rstripChar '/' storage) :=
    congrArg String.toList h
  have hsplit : folded (s.storage ++ s.body) =
      folded (rstripChar '/' storage) ++ folded (slashes ++ s.body) := by
    conv_lhs => rw [hslashes]
    rw [String.append_assoc, folded_append, hname]
  refine ⟨folded (slashes ++ s.body), ?_, fun hinfix => s.headerFree ?_⟩
  · rw [folded_text, toList_directoryMarker, hsplit, List.append_assoc]
  · rw [hsplit]
    exact hinfix.trans (List.suffix_append _ _).isInfix

omit [LawfulMarker] in
theorem joined_append (a b : List StorageSection) : joined (a ++ b) = joined a ++ joined b := by
  induction a with
  | nil => rw [List.nil_append, joined, String.empty_append]
  | cons s a ih => rw [List.cons_append, joined, joined, ih, String.append_assoc]

theorem atHeader_joined (sections : List StorageSection) :
    AtHeader directoryHeader (folded (joined sections)) := by
  cases sections with
  | nil => exact .inl folded_empty
  | cons s rest =>
    refine .inr ?_
    rw [joined, folded_append, folded_text, List.append_assoc]
    exact List.prefix_append _ _

/-- A search for the marker goes past the sections that do not begin with it. -/
theorem findIn_joined {needle : List Char} (hneedle : directoryHeader <+: needle)
    {before after : List StorageSection}
    (hmiss : ∀ front s rest, before = front ++ s :: rest →
      ¬needle <+: folded (joined (s :: rest ++ after))) (start : ℕ) :
    findIn needle start (folded (joined (before ++ after))) =
      findIn needle (start + (folded (joined before)).length) (folded (joined after)) := by
  induction before generalizing start with
  | nil => rw [List.nil_append, joined, folded_empty, List.length_nil, Nat.add_zero]
  | cons s before ih =>
    have hfirst := hmiss [] s before rfl
    have hrest : ∀ front t rest, before = front ++ t :: rest →
        ¬needle <+: folded (joined (t :: rest ++ after)) := fun front t rest h =>
      hmiss (s :: front) t rest (by rw [h]; rfl)
    have hsplit : folded (joined (s :: before ++ after)) =
        directoryHeader ++ folded (s.storage ++ s.body) ++ folded (joined (before ++ after)) := by
      rw [List.cons_append, joined, folded_append, folded_text]
    rw [hsplit] at hfirst ⊢
    rw [findIn_of_section isHeader_directory hneedle s.headerFree (atHeader_joined _) hfirst,
      ih hrest, ← folded_text, joined, folded_append, List.length_append, Nat.add_assoc]

/-! ## What is cut out -/

omit [PyLib] [LawfulMarker] in
theorem slice_append (a b c : String) :
    slice (a ++ (b ++ c)) a.length (some (a.length + b.length)) = b := by
  apply String.toList_injective
  simp only [slice, String.toList_ofList, String.toList_append, ← String.length_toList]
  rw [← List.append_assoc, ← List.length_append, List.take_left, List.drop_left]

omit [PyLib] [LawfulMarker] in
theorem slice_append_none (a b : String) : slice (a ++ b) a.length none = b := by
  apply String.toList_injective
  simp only [slice, String.toList_ofList, String.toList_append, ← String.length_toList]
  rw [List.drop_left]

/-- Where the marker of a storage is found. -/
theorem find_marker {r : Report} {storage : String} {before after : List StorageSection}
    {own : StorageSection} (h : Headed r storage before own after) :
    find (PyLib.casefold r.text) (directoryMarker storage) 0 =
      some (r.preamble ++ joined before).length := by
  obtain ⟨rest, hrest, -⟩ := folded_text_of_names h.names
  have hneedle : directoryHeader <+: (directoryMarker storage).toList := by
    rw [toList_directoryMarker]
    exact List.prefix_append _ _
  have hmiss : ∀ front s rest, before = front ++ s :: rest →
      ¬(directoryMarker storage).toList <+: folded (joined (s :: rest ++ own :: after)) := by
    intro front s rest hbefore hfound
    have hfirst := h.first front s rest hbefore
    rw [startsWith_folded.mpr hfound] at hfirst
    cases hfirst
  have hown : (directoryMarker storage).toList <+: folded (joined (own :: after)) := by
    rw [joined, folded_append, hrest, List.append_assoc]
    exact List.prefix_append _ _
  have hne : (directoryMarker storage).toList ≠ [] := by
    rw [toList_directoryMarker]
    exact List.cons_ne_nil _ _
  calc find (PyLib.casefold r.text) (directoryMarker storage) 0
      = findIn (directoryMarker storage).toList 0 (folded r.text) := by
        rw [find, if_pos (Nat.zero_le _), List.drop_zero]
        rfl
    _ = findIn (directoryMarker storage).toList 0
          (folded r.preamble ++ folded (joined (before ++ own :: after))) := by
        rw [Report.text, folded_append, h.split]
    _ = findIn (directoryMarker storage).toList (0 + (folded r.preamble).length)
          (folded (joined (before ++ own :: after))) :=
        findIn_of_headerFree isHeader_directory hneedle r.headerFree (atHeader_joined _) 0
    _ = findIn (directoryMarker storage).toList
          (0 + (folded r.preamble).length + (folded (joined before)).length)
          (folded (joined (own :: after))) := findIn_joined hneedle hmiss _
    _ = some (0 + (folded r.preamble).length + (folded (joined before)).length) :=
        findIn_of_begins hne hown _
    _ = some (r.preamble ++ joined before).length := by
        rw [← h.start, folded_append, List.length_append, Nat.zero_add]

/-- Where the next header is found. -/
theorem find_next {r : Report} {storage : String} {before after : List StorageSection}
    {own : StorageSection} (h : Headed r storage before own after) :
    find (PyLib.casefold r.text) "directory of "
        ((r.preamble ++ joined before).length + (directoryMarker storage).length) =
      if after = [] then none
      else some ((r.preamble ++ joined before).length + own.text.length) := by
  obtain ⟨rest, hrest, hfree⟩ := folded_text_of_names h.names
  have htext : folded r.text = folded (r.preamble ++ joined before) ++
      ((directoryMarker storage).toList ++ (rest ++ folded (joined after))) := by
    rw [Report.text, h.split, joined_append, joined, ← String.append_assoc, folded_append,
      folded_append own.text, hrest, List.append_assoc]
  have hlength : (PyLib.casefold r.text).length = (folded r.text).length := by
    rw [folded, String.length_toList]
  have hmarker : (directoryMarker storage).length = (directoryMarker storage).toList.length := by
    rw [String.length_toList]
  have hwithin : (r.preamble ++ joined before).length + (directoryMarker storage).length ≤
      (PyLib.casefold r.text).length := by
    rw [hlength, htext, hmarker, ← h.start]
    simp only [List.length_append]
    omega
  have hdrop : (PyLib.casefold r.text).toList.drop
      ((r.preamble ++ joined before).length + (directoryMarker storage).length) =
        rest ++ folded (joined after) := by
    show (folded r.text).drop _ = _
    rw [htext, ← h.start, hmarker, ← List.drop_drop, List.drop_left, List.drop_left]
  rw [find, if_pos hwithin, hdrop]
  show findIn directoryHeader _ (rest ++ folded (joined after)) = _
  rw [findIn_of_headerFree isHeader_directory (List.prefix_refl _) hfree (atHeader_joined _)]
  split_ifs with hafter
  · rw [hafter, joined, folded_empty]
    rfl
  · have hown : (directoryMarker storage).length + rest.length = own.text.length := by
      rw [← h.stop hafter, hrest, List.length_append, hmarker]
    have hnext : directoryHeader <+: folded (joined after) := by
      refine (atHeader_joined after).resolve_left fun hnil => ?_
      obtain ⟨s, after', rfl⟩ := List.exists_cons_of_ne_nil hafter
      rw [joined, folded_append, folded_text] at hnil
      cases hnil
    rw [findIn_of_begins (by decide) hnext]
    congr 1
    omega

/-- The response that is cut out is the storage's own section. -/
theorem storageOutput_of_headed {r : Report} {storage : String} {before after : List StorageSection}
    {own : StorageSection} (h : Headed r storage before own after) :
    storageOutput r.text storage = own.text := by
  unfold storageOutput directoryResponse?
  dsimp only
  rw [find_marker h]
  dsimp only
  rw [find_next h, Option.getD_some, Report.text, h.split, joined_append, joined,
    ← String.append_assoc]
  split_ifs with hafter
  · rw [hafter, joined, String.append_empty, slice_append_none]
  · exact slice_append _ _ _

theorem own_of_headed {r : Report} {storage : String} {before after : List StorageSection}
    {own : StorageSection} (h : Headed r storage before own after) :
    r.own? storage = some own := by
  have hbefore : before.find? (fun s => decide (s.Names storage)) = none := by
    refine List.find?_eq_none.mpr fun s hs hnames => ?_
    obtain ⟨front, rest, hsplit⟩ := List.append_of_mem hs
    obtain ⟨after', hafter, -⟩ := folded_text_of_names (of_decide_eq_true hnames)
    have hfirst := h.first front s rest hsplit
    have hfound : (directoryMarker storage).toList <+:
        folded (joined (s :: rest ++ own :: after)) := by
      rw [List.cons_append, joined, folded_append, hafter, List.append_assoc]
      exact List.prefix_append _ _
    rw [startsWith_folded.mpr hfound] at hfirst
    cases hfirst
  rw [Report.own?, h.split, List.find?_append, hbefore, Option.none_or]
  exact List.find?_cons_of_pos (decide_eq_true h.names)

end

/-! ## What is decided about a storage -/

section

variable [PyText]

/-- What is decided about a storage: its free space, its delete commands or the error of having too
little space, and whether the package is present. -/
structure StorageResults where
  free : Except PyError ℤ
  commands : Except DeviceError (List String)
  present : Except PyError Bool

/-- The inputs with the report as the output; the startup output is another. -/
def CleanupInputs.reading (inputs : CleanupInputs) (r : Report) : CleanupInputs :=
  { inputs with output := r.text }

def CleanupInputs.results (inputs : CleanupInputs) (label storage : String) : StorageResults where
  free := parseFreeSpaceBytes (storageOutput inputs.output storage)
  commands := inputs.storageCommands (label, storage)
  present := packageIsPresent (storageOutput inputs.output storage) storage inputs.name inputs.size

/-- A file of the storage's own section. -/
def Report.Lists (r : Report) (storage : String) (entry : PackageFileEntry) : Prop :=
  ∃ own, r.own? storage = some own ∧
    ∃ entries, parseDirEntries own.text storage = .ok entries ∧ entry ∈ entries

/-- What is deleted from a storage, and what is present on it, is listed in its own section. -/
structure OwnFiles (inputs : CleanupInputs) (label storage : String) (r : Report) : Prop where
  deleted : ∀ entry, (inputs.reading r).Deletes storage entry → r.Lists storage entry
  present : ((inputs.reading r).results label storage).present = .ok true →
    ∃ entry, r.Lists storage entry ∧ packageBasename entry.name = packageBasename inputs.name

/-- The output comes in by what is cut out of it. -/
theorem results_of_storageOutput {inputs : CleanupInputs} {label storage : String} {r r' : Report}
    (h : storageOutput r.text storage = storageOutput r'.text storage) :
    (inputs.reading r).results label storage = (inputs.reading r').results label storage := by
  unfold CleanupInputs.results CleanupInputs.storageCommands CleanupInputs.plan
    CleanupInputs.reading
  rw [h]

/-- A package that is present is one of the files. -/
theorem mem_of_packageIsPresent {output storage name : String} {size : ℤ}
    (h : packageIsPresent output storage name size = .ok true) :
    ∃ entries, parseDirEntries output storage = .ok entries ∧
      ∃ entry ∈ entries, packageBasename entry.name = packageBasename name := by
  unfold packageIsPresent at h
  split_ifs at h with hsize
  · cases h
  · obtain ⟨entries, hentries, h⟩ := Except.bind_eq_ok.mp h
    refine ⟨entries, hentries, ?_⟩
    cases hfound : entries.find? fun entry => packageBasename entry.name = packageBasename name with
    | none =>
      rw [hfound] at h
      cases h
    | some entry =>
      have hname := List.find?_some hfound
      exact ⟨entry, List.mem_of_find?_eq_some hfound, of_decide_eq_true hname⟩

variable [LawfulMarker]

end

/-! ## A device with a standby controller -/

omit [PyLib]

theorem lawfulMarker_decimal : @LawfulMarker PyLib.decimal :=
  @LawfulMarker.mk PyLib.decimal (fun s t => String.toList_injective (by simp [PyLib.casefold]))
    (by decide +kernel) (by decide +kernel)

/-- The master storage, with an old package. -/
def masterSection : @StorageSection PyLib.decimal :=
  @StorageSection.mk PyLib.decimal "flash:/" "\n0 -rw- 9 Jan old.cc\n" (by decide +kernel)
    (by unfold HeaderFree; decide +kernel)

/-- The standby storage, with another. -/
def standbySection : @StorageSection PyLib.decimal :=
  @StorageSection.mk PyLib.decimal "slave#flash:/" "\n0 -rw- 128000000 Jan old.cc\n"
    (by decide +kernel) (by unfold HeaderFree; decide +kernel)

/-- A report of some sections. -/
def reportOf (sections : List (@StorageSection PyLib.decimal)) : @Report PyLib.decimal :=
  @Report.mk PyLib.decimal "" sections (by unfold HeaderFree; decide +kernel)

/-- An upgrade that may delete. -/
def deletingInputs : CleanupInputs where
  name := "new.cc"
  size := 0
  output := ""
  startup := ""
  storages := [("master", "flash:/")]
  autoDelete := true

end DeviceShell.Huawei
