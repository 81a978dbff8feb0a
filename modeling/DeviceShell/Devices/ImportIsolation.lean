import DeviceShell.Devices.ImportParser
import DeviceShell.Lib.Fallible

/-!
# Isolation of the rows of an import

A row that raises a `ValueError` becomes an issue, and the others go on. `isolates_iff` says when
an import accounts for every row: what escapes is only the `OverflowError` of a port that `float`
reads as infinite, besides the limits that hold for the table as a whole.
-/

namespace DeviceShell.DeviceImport

section

variable [PyLib]

/-! ## What is accounted for -/

/-- The rows of a table that are not blank, after the header. -/
def dataRows (rows : List (ℕ × List Value)) : List (ℕ × List Value) :=
  rows.filter fun row => isData row.2

/-- What a row has come to: its device, or an issue with its number and the text of its error. -/
def Yields (mapping : Dict String ℕ) (row : ℕ × List Value) : Device ⊕ DeviceImportIssue → Prop
  | .inl device => deviceFromValues (rowValues mapping row.2) = .ok device
  | .inr issue => issue.row = row.1 ∧
      ∃ seen, rowDevice mapping seen row.2 = .error (.valueError issue.message)

/-- Every row has come to one device or one issue, in the order of the rows, the numbers add up, and
no two devices have the same key. -/
structure Isolated (mapping : Dict String ℕ) (rows : List (ℕ × List Value))
    (parsed : ParsedDeviceImport) : Prop where
  outcomes : ∃ outcomes : List (Device ⊕ DeviceImportIssue),
    List.Forall₂ (Yields mapping) rows outcomes ∧
      parsed.devices = outcomes.filterMap Sum.getLeft? ∧
      parsed.errors = outcomes.filterMap Sum.getRight?
  total : parsed.totalRows = rows.length
  skipped : parsed.skippedRows = parsed.errors.length
  sum : parsed.devices.length + parsed.skippedRows = parsed.totalRows
  keys : (parsed.devices.map Device.key).Nodup

/-! ## Ports -/

/-- A computation raises what the loop over the rows does not catch. -/
def Escapes {α : Type} (x : Except PyError α) : Prop :=
  ∃ e, x = .error e ∧ ∀ message, e ≠ .valueError message

omit [PyLib] in
theorem escapes_bind {α β : Type} {x : Except PyError α} {f : α → Except PyError β} :
    Escapes (x >>= f) ↔ Escapes x ∨ ∃ a, x = .ok a ∧ Escapes (f a) := by
  cases x with
  | error e => simp [Escapes, bind, Except.bind]
  | ok a => simp [Escapes, bind, Except.bind]

omit [PyLib] in
theorem not_escapes_ok {α : Type} {a : α} : ¬Escapes (.ok a) := by
  rintro ⟨e, he, -⟩
  cases he

omit [PyLib] in
theorem not_escapes_valueError {α : Type} {message : String} :
    ¬Escapes (.error (.valueError message) : Except PyError α) := by
  rintro ⟨e, he, hnot⟩
  cases he
  exact hnot message rfl

/-- A port cell that `float` reads as infinite. -/
def IsInfinite (value : String) : Prop :=
  value ≠ "" ∧ (PyLib.parseFloat value = some .posInf ∨ PyLib.parseFloat value = some .negInf)

/-- A port cell that is a port, or empty. -/
def IsPort (value : String) : Prop :=
  value = "" ∨ ∃ n, truncated value = .ok n ∧ 1 ≤ n ∧ n ≤ 65535

/-- The number of an infinite cell is no number, and that of any other cell is one or a
`ValueError`. -/
theorem truncated_escapes_iff (value : String) : Escapes (truncated value) ↔
    PyLib.parseFloat value = some .posInf ∨ PyLib.parseFloat value = some .negInf := by
  cases hparse : PyLib.parseFloat value with
  | none =>
    have hfloat : truncated value = .error (.valueError "could not convert string to float") := by
      simp only [truncated, Value.toFloat, hparse]
      rfl
    simp only [hfloat, reduceCtorEq, or_self, iff_false]
    exact not_escapes_valueError
  | some number =>
    have hfloat : truncated value = (Value.float number).toInt := by
      simp only [truncated, Value.toFloat, hparse]
      rfl
    rw [hfloat]
    cases number with
    | finite q =>
      simp only [Option.some.injEq, reduceCtorEq, or_self, iff_false]
      exact not_escapes_ok
    | nan =>
      simp only [Option.some.injEq, reduceCtorEq, or_self, iff_false]
      exact not_escapes_valueError
    | posInf => exact iff_of_true ⟨_, rfl, fun message => PyError.noConfusion⟩ (.inl rfl)
    | negInf => exact iff_of_true ⟨_, rfl, fun message => PyError.noConfusion⟩ (.inr rfl)

theorem port_escapes_iff (value : String) (default : ℤ) (label : String) :
    Escapes (port value default label) ↔ IsInfinite value := by
  unfold port IsInfinite
  rw [← truncated_escapes_iff]
  by_cases hempty : value = ""
  · rw [if_pos hempty]
    exact iff_of_false not_escapes_ok fun h => h.1 hempty
  rw [if_neg hempty, and_iff_right hempty]
  cases htruncated : truncated value with
  | ok parsed =>
    dsimp only
    refine iff_of_false ?_ not_escapes_ok
    split_ifs
    · exact not_escapes_valueError
    · exact not_escapes_ok
  | error e =>
    cases e with
    | valueError message => exact iff_of_false not_escapes_valueError not_escapes_valueError
    | _ => exact Iff.rfl

theorem port_returns_iff (value : String) (default : ℤ) (label : String) :
    (∃ n, port value default label = .ok n) ↔ IsPort value := by
  unfold port IsPort
  by_cases hempty : value = ""
  · rw [if_pos hempty]
    exact iff_of_true ⟨_, rfl⟩ (.inl hempty)
  rw [if_neg hempty, or_iff_right hempty]
  cases htruncated : truncated value with
  | ok parsed =>
    dsimp only
    by_cases hrange : parsed < 1 ∨ 65535 < parsed
    · rw [if_pos hrange]
      refine iff_of_false (by simp) ?_
      rintro ⟨n, hn, hlow, hhigh⟩
      cases hn
      omega
    · rw [if_neg hrange]
      exact iff_of_true ⟨_, rfl⟩ ⟨parsed, rfl, by omega, by omega⟩
  | error e => cases e <;> simp

/-! ## Rows -/

/-- The first port cell of a device that is no port is infinite. The cells are looked at in the
order SSH, Telnet, serial, once the device has an id that is not too long. -/
def ReachesInfinity (values : Dict String String) : Prop :=
  let id := orElse (stripped values "id") (stripped values "name")
  id ≠ "" ∧ id.length ≤ 160 ∧
    (IsInfinite (text values "ssh_port") ∨ IsPort (text values "ssh_port") ∧
      (IsInfinite (text values "telnet_port") ∨ IsPort (text values "telnet_port") ∧
        IsInfinite (text values "serial_port")))

theorem deviceFromValues_escapes_iff (values : Dict String String) :
    Escapes (deviceFromValues values) ↔ ReachesInfinity values := by
  unfold deviceFromValues ReachesInfinity
  dsimp only
  by_cases hid : orElse (stripped values "id") (stripped values "name") = ""
  · rw [if_pos hid]
    exact iff_of_false not_escapes_valueError fun h => h.1 hid
  by_cases hlong : 160 < (orElse (stripped values "id") (stripped values "name")).length
  · rw [if_neg hid, if_pos hlong]
    exact iff_of_false not_escapes_valueError fun h => absurd h.2.1 (by omega)
  · rw [if_neg hid, if_neg hlong, and_iff_right hid, and_iff_right (by omega : _ ≤ 160),
      escapes_bind, port_escapes_iff, ← port_returns_iff (text values "ssh_port") 22 "SSH",
      ← port_returns_iff (text values "telnet_port") 23 "Telnet"]
    simp only [escapes_bind, port_escapes_iff, not_escapes_ok, pure, Except.pure, and_false,
      exists_false, or_false]
    simp only [exists_and_right]

/-- The key check raises a `ValueError` only. -/
theorem rowDevice_escapes_iff (mapping : Dict String ℕ) (seen : List (String × String))
    (row : List Value) :
    Escapes (rowDevice mapping seen row) ↔ ReachesInfinity (rowValues mapping row) := by
  unfold rowDevice
  rw [escapes_bind, deviceFromValues_escapes_iff, or_iff_left]
  rintro ⟨device, -, h⟩
  split_ifs at h
  · exact not_escapes_valueError h
  · exact not_escapes_ok h

/-- A row is a device when it can be converted and its key was not seen. -/
theorem rowDevice_eq_ok_iff {mapping : Dict String ℕ} {seen : List (String × String)}
    {row : List Value} {device : Device} : rowDevice mapping seen row = .ok device ↔
      deviceFromValues (rowValues mapping row) = .ok device ∧ device.key ∉ seen := by
  unfold rowDevice
  rw [Except.bind_eq_ok]
  constructor
  · rintro ⟨converted, hconverted, h⟩
    by_cases hseen : seen.contains converted.key = true
    · rw [if_pos hseen] at h
      cases h
    · rw [if_neg hseen] at h
      cases h
      exact ⟨hconverted, by simpa using hseen⟩
  · rintro ⟨hconverted, hseen⟩
    exact ⟨device, hconverted, if_neg (by simpa using hseen)⟩

/-! ## The loop -/

/-- Blank rows are passed over. -/
theorem parseLoop_dataRows (mapping : Dict String ℕ) (rows : List (ℕ × List Value))
    (q : Progress) : parseLoop mapping rows q = parseLoop mapping (dataRows rows) q := by
  induction rows generalizing q with
  | nil => rfl
  | cons row rest ih =>
    by_cases hdata : isData row.2 = true
    · have hfilter : dataRows (row :: rest) = row :: dataRows rest := List.filter_cons_of_pos hdata
      rw [hfilter]
      unfold parseLoop
      simp only [ih]
    · have hfilter : dataRows (row :: rest) = dataRows rest := List.filter_cons_of_neg hdata
      have hskip : parseLoop mapping (row :: rest) q = parseLoop mapping rest q := by
        rw [parseLoop, if_pos (by simpa using hdata)]
      rw [hfilter, hskip, ih]

/-- What the loop has made of the rows so far. -/
structure Accounted (mapping : Dict String ℕ) (rows : List (ℕ × List Value)) (q : Progress) :
    Prop where
  outcomes : ∃ outcomes : List (Device ⊕ DeviceImportIssue),
    List.Forall₂ (Yields mapping) rows outcomes ∧
      q.devices = outcomes.filterMap Sum.getLeft? ∧ q.errors = outcomes.filterMap Sum.getRight?
  total : q.totalRows = rows.length
  skipped : q.skippedRows = q.errors.length
  sum : q.devices.length + q.skippedRows = q.totalRows
  keys : (q.devices.map Device.key).Nodup
  seen : ∀ key, key ∈ q.seen ↔ key ∈ q.devices.map Device.key
  /-- The first row that can be converted is a device. -/
  converted : ∀ row ∈ rows, ∀ device, deviceFromValues (rowValues mapping row.2) = .ok device →
    q.devices ≠ []

variable {mapping : Dict String ℕ} {done : List (ℕ × List Value)} {q : Progress}

theorem Accounted.keep (h : Accounted mapping done q) {row : ℕ × List Value} {device : Device}
    (hrow : rowDevice mapping q.seen row.2 = .ok device) :
    Accounted mapping (done ++ [row]) ({ q with totalRows := q.totalRows + 1 }.keep device) := by
  obtain ⟨outcomes, hyields, hdevices, herrors⟩ := h.outcomes
  obtain ⟨hconverted, hfresh⟩ := rowDevice_eq_ok_iff.1 hrow
  have hnew : device.key ∉ q.devices.map Device.key := fun hmem => hfresh ((h.seen _).2 hmem)
  have hyield : Yields mapping row (.inl device) := hconverted
  have htotal := h.total
  have hsum := h.sum
  exact {
    outcomes := by
      refine ⟨outcomes ++ [.inl device], List.rel_append hyields (.cons hyield .nil), ?_, ?_⟩
      · simp [Progress.keep, hdevices]
      · simp [Progress.keep, herrors]
    total := by simp [Progress.keep, htotal]
    skipped := h.skipped
    sum := by
      simp only [Progress.keep, List.length_append, List.length_singleton]
      omega
    keys := by
      simp only [Progress.keep, List.map_append, List.map_singleton]
      exact List.nodup_append_comm.1 (List.nodup_cons.2 ⟨hnew, h.keys⟩)
    seen := fun key => by
      simp only [Progress.keep, List.mem_cons, List.map_append, List.map_singleton,
        List.mem_append, List.not_mem_nil, or_false, h.seen]
      exact or_comm
    converted := fun _ _ _ _ => by simp [Progress.keep] }

theorem Accounted.skip (h : Accounted mapping done q) {row : ℕ × List Value} {message : String}
    (hrow : rowDevice mapping q.seen row.2 = .error (.valueError message)) :
    Accounted mapping (done ++ [row]) ({ q with totalRows := q.totalRows + 1 }.skip row.1 message)
    := by
  obtain ⟨outcomes, hyields, hdevices, herrors⟩ := h.outcomes
  have hyield : Yields mapping row (.inr ⟨row.1, message⟩) := ⟨rfl, q.seen, hrow⟩
  have htotal := h.total
  have hskipped := h.skipped
  have hsum := h.sum
  exact {
    outcomes := by
      refine ⟨outcomes ++ [.inr ⟨row.1, message⟩], List.rel_append hyields (.cons hyield .nil),
        ?_, ?_⟩
      · simp [Progress.skip, hdevices]
      · simp [Progress.skip, herrors]
    total := by simp [Progress.skip, htotal]
    skipped := by simp [Progress.skip, hskipped]
    sum := by
      simp only [Progress.skip]
      omega
    keys := h.keys
    seen := h.seen
    converted := fun row' hmem device hconverted => by
      rcases List.mem_append.1 hmem with hmem | hmem
      · exact h.converted row' hmem device hconverted
      · -- A row that can be converted is skipped over a device with its key.
        rw [List.mem_singleton.1 hmem] at hconverted
        have hseen : device.key ∈ q.seen := by
          by_contra hfresh
          rw [rowDevice_eq_ok_iff.2 ⟨hconverted, hfresh⟩] at hrow
          cases hrow
        intro hnone
        have hkeys := (h.seen _).1 hseen
        have hnone : q.devices = [] := hnone
        simp [hnone] at hkeys }

omit [PyLib] in
/-- What a list is related to item by item is related to one of its items. -/
theorem exists_of_mem_forall₂ {α β : Type} {R : α → β → Prop} {xs : List α} {ys : List β}
    (h : List.Forall₂ R xs ys) {y : β} (hy : y ∈ ys) : ∃ x ∈ xs, R x y := by
  induction h with
  | nil => cases hy
  | cons hhead _ ih =>
    rcases List.mem_cons.1 hy with rfl | hy
    · exact ⟨_, List.mem_cons_self, hhead⟩
    · obtain ⟨x, hx, hR⟩ := ih hy
      exact ⟨x, List.mem_cons_of_mem _ hx, hR⟩

/-- There is a device exactly if some row can be converted. -/
theorem Accounted.devices_ne_nil_iff (h : Accounted mapping done q) : q.devices ≠ [] ↔
    ∃ row ∈ done, ∃ device, deviceFromValues (rowValues mapping row.2) = .ok device := by
  constructor
  · intro hdevices
    obtain ⟨outcomes, hyields, houtcomes, -⟩ := h.outcomes
    obtain ⟨device, hdevice⟩ := List.exists_mem_of_ne_nil _ hdevices
    rw [houtcomes, List.mem_filterMap] at hdevice
    obtain ⟨outcome, hmem, hleft⟩ := hdevice
    obtain rfl := Sum.getLeft?_eq_some_iff.1 hleft
    obtain ⟨row, hrow, hyield⟩ := exists_of_mem_forall₂ hyields hmem
    exact ⟨row, hrow, device, hyield⟩
  · rintro ⟨row, hrow, device, hdevice⟩
    exact h.converted row hrow device hdevice

theorem accounted_nil : Accounted mapping [] {} where
  outcomes := ⟨[], .nil, rfl, rfl⟩
  total := rfl
  skipped := rfl
  sum := rfl
  keys := List.nodup_nil
  seen := fun _ => Iff.rfl
  converted := fun _ hrow => absurd hrow List.not_mem_nil

/-- The loop returns exactly when there are not too many rows and none reaches an infinite port, and
then it accounts for all of them. -/
theorem parseLoop_spec (rows : List (ℕ × List Value)) (hdata : ∀ row ∈ rows, isData row.2 = true)
    (h : Accounted mapping done q) (hdone : done.length ≤ maxImportRows) :
    (∀ q', parseLoop mapping rows q = .ok q' → Accounted mapping (done ++ rows) q') ∧
      ((∃ q', parseLoop mapping rows q = .ok q') ↔ done.length + rows.length ≤ maxImportRows ∧
        ∀ row ∈ rows, ¬ReachesInfinity (rowValues mapping row.2)) := by
  induction rows generalizing done q with
  | nil =>
    refine ⟨fun q' hq => ?_, iff_of_true ⟨q, rfl⟩ ⟨hdone, by simp⟩⟩
    rw [← Except.ok.inj hq, List.append_nil]
    exact h
  | cons row rest ih =>
    have hhead := hdata row List.mem_cons_self
    have hrest : ∀ row ∈ rest, isData row.2 = true := fun r hr =>
      hdata r (List.mem_cons_of_mem _ hr)
    have hlength : (done ++ [row]).length = done.length + 1 := by simp
    rw [parseLoop, if_neg (by simp [hhead]), h.total, List.forall_mem_cons, List.length_cons]
    by_cases hmany : maxImportRows < done.length + 1
    · rw [if_pos hmany]
      refine ⟨fun q' hq => (by cases hq), iff_of_false (by simp) fun hall => ?_⟩
      omega
    rw [if_neg hmany, ← rowDevice_escapes_iff mapping q.seen row.2]
    dsimp only
    cases hrow : rowDevice mapping q.seen row.2 with
    | ok device =>
      have hnext := h.keep hrow
      rw [h.total] at hnext
      obtain ⟨haccounts, hreturns⟩ := ih hrest hnext (by omega)
      rw [List.append_assoc] at haccounts
      refine ⟨haccounts, hreturns.trans ?_⟩
      rw [hlength, Nat.add_assoc, Nat.add_comm 1]
      simp [not_escapes_ok]
    | error e =>
      cases e with
      | valueError message =>
        have hnext := h.skip hrow
        rw [h.total] at hnext
        obtain ⟨haccounts, hreturns⟩ := ih hrest hnext (by omega)
        rw [List.append_assoc] at haccounts
        refine ⟨haccounts, hreturns.trans ?_⟩
        rw [hlength, Nat.add_assoc, Nat.add_comm 1]
        simp [not_escapes_valueError]
      | _ =>
        refine ⟨fun q' hq => (by cases hq), iff_of_false (by simp) fun hall => hall.2.1 ?_⟩
        exact ⟨_, rfl, fun message => PyError.noConfusion⟩

/-! ## Imports -/

/-- The import of the table accounts for every row of it. -/
def Isolates (rows : List (List Value)) : Prop :=
  ∃ header data parsed, splitHeader (rows.zipIdx.map fun e => (e.2 + 1, e.1)) = some (header, data) ∧
    parseRows rows = .ok parsed ∧
    Isolated (columnMapping (headerTexts header)) (dataRows data) parsed

/-- A table that can be imported as a whole, and in which no row reaches an infinite port. -/
structure Importable (header : List Value) (rows : List (ℕ × List Value)) : Prop where
  columns : header.length ≤ maxImportColumns
  named : (columnMapping (headerTexts header)).contains "id" = true ∨
    (columnMapping (headerTexts header)).contains "name" = true
  few : rows.length ≤ maxImportRows
  converted : ∃ row ∈ rows, ∃ device,
    deviceFromValues (rowValues (columnMapping (headerTexts header)) row.2) = .ok device
  finite : ∀ row ∈ rows, ¬ReachesInfinity (rowValues (columnMapping (headerTexts header)) row.2)

/-- An import accounts for every row exactly if the table keeps the limits of an import, some row is
a device, and no row reaches an infinite port. -/
theorem isolates_iff (rows : List (List Value)) : Isolates rows ↔
    ∃ header data, splitHeader (rows.zipIdx.map fun e => (e.2 + 1, e.1)) = some (header, data) ∧
      Importable header (dataRows data) := by
  have hloop (mapping : Dict String ℕ) (data : List (ℕ × List Value)) :=
    have hdata : ∀ row ∈ dataRows data, isData row.2 = true :=
      fun row hrow => (List.mem_filter.1 hrow).2
    parseLoop_spec (dataRows data) hdata (accounted_nil : Accounted mapping [] {}) (Nat.zero_le _)
  constructor
  · rintro ⟨header, data, parsed, hsplit, hparse, -⟩
    obtain ⟨haccounts, hreturns⟩ := hloop (columnMapping (headerTexts header)) data
    refine ⟨header, data, hsplit, ?_⟩
    unfold parseRows at hparse
    rw [hsplit] at hparse
    dsimp only at hparse
    by_cases hcolumns : maxImportColumns < header.length
    · rw [if_pos hcolumns] at hparse
      cases hparse
    rw [if_neg hcolumns] at hparse
    by_cases hnamed : (!(columnMapping (headerTexts header)).contains "id" &&
        !(columnMapping (headerTexts header)).contains "name") = true
    · rw [if_pos hnamed] at hparse
      cases hparse
    rw [if_neg hnamed] at hparse
    obtain ⟨q, hq, hdevices⟩ := Except.bind_eq_ok.1 hparse
    rw [parseLoop_dataRows] at hq
    have hdone := haccounts q hq
    obtain ⟨hfew, hfinite⟩ := hreturns.1 ⟨q, hq⟩
    have hsome : q.devices ≠ [] := by
      intro hnone
      rw [if_pos hnone] at hdevices
      cases hdevices
    rw [List.nil_append] at hdone
    exact {
      columns := by omega
      named := by
        simp only [Bool.and_eq_true, Bool.not_eq_true', not_and_or, Bool.not_eq_false] at hnamed
        exact hnamed
      few := by simpa using hfew
      converted := hdone.devices_ne_nil_iff.1 hsome
      finite := hfinite }
  · rintro ⟨header, data, hsplit, himport⟩
    obtain ⟨haccounts, hreturns⟩ := hloop (columnMapping (headerTexts header)) data
    obtain ⟨q, hq⟩ := hreturns.2 ⟨by simpa using himport.few, himport.finite⟩
    have hdone := haccounts q hq
    rw [List.nil_append] at hdone
    have hsome := hdone.devices_ne_nil_iff.2 himport.converted
    have hcolumns := himport.columns
    have hnamed : ¬(!(columnMapping (headerTexts header)).contains "id" &&
        !(columnMapping (headerTexts header)).contains "name") = true := by
      rcases himport.named with h | h <;> simp [h]
    refine ⟨header, data, q.result (headerTexts header), hsplit, ?_, ?_⟩
    · unfold parseRows
      rw [hsplit]
      dsimp only
      rw [if_neg (by omega), if_neg hnamed, parseLoop_dataRows, hq]
      exact if_neg hsome
    · exact {
        outcomes := hdone.outcomes
        total := hdone.total
        skipped := hdone.skipped
        sum := hdone.sum
        keys := hdone.keys }

end

/-- A library that reads the text `inf` as Python does. -/
@[reducible] def infinityLib : PyLib :=
  { PyLib.atEpoch with parseFloat := fun s => if s = "inf" then some .posInf else none }

/-- A table with a good row and one whose port is infinite. -/
theorem not_isolates_infinity :
    letI := infinityLib
    ¬∀ rows : List (List Value), Isolates rows := by
  intro h
  obtain ⟨header, data, parsed, -, hparse, -⟩ :=
    h [[.str "id", .str "ssh_port"], [.str "A", .str ""], [.str "B", .str "inf"]]
  have hraises : @parseRows infinityLib
      [[.str "id", .str "ssh_port"], [.str "A", .str ""], [.str "B", .str "inf"]] =
        .error (.python (.overflowError "cannot convert float infinity to integer")) := by
    decide +kernel
  rw [hraises] at hparse
  cases hparse

end DeviceShell.DeviceImport
