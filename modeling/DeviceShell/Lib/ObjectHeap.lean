import DeviceShell.Lib.Dict
import DeviceShell.Lib.Value

/-!
# Objects that are shared

Dictionaries and lists as Python has them: an object is known by its place in the heap, and others
hold it by that place, so that a change of it shows wherever it is held. `values` is what the objects
read as, all the way down. A heap that only grows leaves the readings as they are
(`reading_append`).
-/

namespace DeviceShell

/-- What an object holds: a plain value, or another object. -/
inductive Slot where
  | plain (v : Value)
  | ref (n : ℕ)

/-- A dictionary or a list. -/
inductive Object where
  | dict (d : Dict String Slot)
  | list (items : List Slot)

/-- The objects, in the order in which they were made. -/
abbrev ObjectHeap := List Object

/-- What a slot reads as, for the values of the objects. -/
def Slot.read (values : List Value) : Slot → Value
  | .plain v => v
  | .ref n => values[n]?.getD .none

/-- What an object reads as. -/
def Object.read (values : List Value) : Object → Value
  | .dict d => .dict (d.entries.map fun e => (e.1, e.2.read values))
  | .list items => .list (items.map fun slot => slot.read values)

/-- The object that a slot holds. -/
def Slot.ref? : Slot → Option ℕ
  | .plain _ => none
  | .ref n => some n

/-- The objects that an object holds. -/
def Object.refs : Object → List ℕ
  | .dict d => d.entries.filterMap fun e => e.2.ref?
  | .list items => items.filterMap Slot.ref?

namespace ObjectHeap

/-- The values of further objects, after those of the first ones. -/
def readFrom : List Value → ObjectHeap → List Value
  | values, [] => values
  | values, o :: rest => readFrom (values ++ [o.read values]) rest

/-- What every object reads as. An object can only hold older ones. -/
def values (h : ObjectHeap) : List Value := readFrom [] h

/-- What the object at a place reads as. -/
def reading (h : ObjectHeap) (n : ℕ) : Option Value := h.values[n]?

/-- A new object. -/
def alloc (h : ObjectHeap) (o : Object) : ObjectHeap := h ++ [o]

/-- The dictionary at a place. -/
def dict? (h : ObjectHeap) (n : ℕ) : Option (Dict String Slot) :=
  match h[n]? with
  | some (.dict d) => some d
  | _ => none

/-- The list at a place. -/
def list? (h : ObjectHeap) (n : ℕ) : Option (List Slot) :=
  match h[n]? with
  | some (.list items) => some items
  | _ => none

/-- `d.pop(key, None)` of the dictionary at a place. -/
def pop (h : ObjectHeap) (n : ℕ) (key : String) : ObjectHeap :=
  match h.dict? n with
  | some d => h.set n (.dict (d.erase key))
  | none => h

/-- Every object holds older ones only. -/
def Scoped (h : ObjectHeap) : Prop :=
  ∀ (n : ℕ) (o : Object), h[n]? = some o → ∀ m ∈ o.refs, m < n

/-! ## Readings -/

theorem readFrom_append (vs : List Value) (h h' : ObjectHeap) :
    readFrom vs (h ++ h') = readFrom (readFrom vs h) h' := by
  induction h generalizing vs with
  | nil => rfl
  | cons o h ih => exact ih _

theorem prefix_readFrom (vs : List Value) (h : ObjectHeap) : vs <+: readFrom vs h := by
  induction h generalizing vs with
  | nil => exact List.prefix_refl vs
  | cons o h ih => exact (List.prefix_append vs _).trans (ih _)

theorem length_readFrom (vs : List Value) (h : ObjectHeap) :
    (readFrom vs h).length = vs.length + h.length := by
  induction h generalizing vs with
  | nil => rfl
  | cons o h ih =>
    rw [readFrom, ih, List.length_append, List.length_singleton, List.length_cons]
    omega

theorem length_values (h : ObjectHeap) : h.values.length = h.length := by
  rw [values, length_readFrom, List.length_nil, Nat.zero_add]

theorem values_append_begins (h h' : ObjectHeap) : h.values <+: values (h ++ h') := by
  rw [values, values, readFrom_append]
  exact prefix_readFrom _ _

/-- A heap that grows leaves the readings as they are. -/
theorem reading_of_grown {h h' : ObjectHeap} (hgrow : h <+: h') {n : ℕ} {v : Value}
    (hread : h.reading n = some v) : h'.reading n = some v := by
  obtain ⟨new, rfl⟩ := hgrow
  obtain ⟨hlt, hv⟩ := List.getElem?_eq_some_iff.mp hread
  obtain ⟨rest, hrest⟩ := values_append_begins h new
  unfold reading
  rw [← hrest, List.getElem?_append_left hlt]
  exact hread

/-- A slot of older objects reads the same among more of them. -/
theorem read_of_grown {vs vs' : List Value} (hgrow : vs <+: vs') {slot : Slot}
    (hslot : ∀ n ∈ slot.ref?, n < vs.length) : slot.read vs' = slot.read vs := by
  cases slot with
  | plain v => rfl
  | ref n =>
    obtain ⟨rest, rfl⟩ := hgrow
    have hlt : n < vs.length := hslot n rfl
    show (vs ++ rest)[n]?.getD .none = vs[n]?.getD .none
    rw [List.getElem?_append_left hlt]

theorem object_read_of_grown {vs vs' : List Value} (hgrow : vs <+: vs') {o : Object}
    (ho : ∀ n ∈ o.refs, n < vs.length) : o.read vs' = o.read vs := by
  cases o with
  | dict d =>
    refine congrArg Value.dict (List.map_congr_left fun e he => ?_)
    rw [read_of_grown hgrow fun n hn => ho n (List.mem_filterMap.mpr ⟨e, he, hn⟩)]
  | list items =>
    refine congrArg Value.list (List.map_congr_left fun slot hslot => ?_)
    exact read_of_grown hgrow fun n hn => ho n (List.mem_filterMap.mpr ⟨slot, hslot, hn⟩)

/-- An object reads as what it holds reads as. -/
theorem reading_eq {h : ObjectHeap} (hscoped : h.Scoped) {n : ℕ} {o : Object} (hn : h[n]? = some o) :
    h.reading n = some (o.read h.values) := by
  obtain ⟨hlt, ho⟩ := List.getElem?_eq_some_iff.mp hn
  have hsplit : h = h.take n ++ o :: h.drop (n + 1) := by
    rw [← ho, ← List.drop_eq_getElem_cons hlt, List.take_append_drop]
  have hlength : (values (h.take n)).length = n := by
    rw [length_values, List.length_take]
    omega
  have hfront : values (h.take n) ++ [o.read (values (h.take n))] <+: h.values := by
    conv_rhs => rw [hsplit]
    rw [values, values, readFrom_append, readFrom]
    exact prefix_readFrom _ _
  have hread : o.read h.values = o.read (values (h.take n)) :=
    object_read_of_grown ((List.prefix_append _ _).trans hfront) fun m hm => by
      rw [hlength]
      exact hscoped n o hn m hm
  obtain ⟨rest, hrest⟩ := hfront
  unfold reading
  rw [hread, ← hrest, List.append_assoc, List.getElem?_append_right hlength.le, hlength,
    Nat.sub_self]
  rfl

/-! ## Allocation and removal -/

theorem scoped_alloc {h : ObjectHeap} (hscoped : h.Scoped) {o : Object}
    (ho : ∀ m ∈ o.refs, m < h.length) : Scoped (h.alloc o) := by
  intro n p hp m hm
  rcases Nat.lt_or_ge n h.length with hlt | hge
  · rw [alloc, List.getElem?_append_left hlt] at hp
    exact hscoped n p hp m hm
  · rw [alloc, List.getElem?_append_right hge] at hp
    obtain ⟨hzero, hsame⟩ := List.getElem?_eq_some_iff.mp hp
    have hn : n - h.length = 0 := by
      rw [List.length_singleton] at hzero
      omega
    simp only [hn, List.getElem_cons_zero] at hsame
    rw [hsame] at ho
    exact (ho m hm).trans_le hge

theorem getElem?_alloc (h : ObjectHeap) (o : Object) : (h.alloc o)[h.length]? = some o := by
  rw [alloc, List.getElem?_append_right (Nat.le_refl _), Nat.sub_self]
  rfl

theorem getElem?_of_grown {h h' : ObjectHeap} (hgrow : h <+: h') {n : ℕ} {o : Object}
    (hn : h[n]? = some o) : h'[n]? = some o := by
  obtain ⟨new, rfl⟩ := hgrow
  obtain ⟨hlt, -⟩ := List.getElem?_eq_some_iff.mp hn
  rw [List.getElem?_append_left hlt]
  exact hn

theorem dict?_eq_some {h : ObjectHeap} {n : ℕ} {d : Dict String Slot} :
    h.dict? n = some d ↔ h[n]? = some (.dict d) := by
  unfold dict?
  split
  · next d' hd => simp [hd]
  · next hother =>
    constructor
    · intro hnone
      cases hnone
    · intro hd
      exact absurd hd (hother d)

theorem list?_eq_some {h : ObjectHeap} {n : ℕ} {items : List Slot} :
    h.list? n = some items ↔ h[n]? = some (.list items) := by
  unfold list?
  split
  · next items' hitems => simp [hitems]
  · next hother =>
    constructor
    · intro hnone
      cases hnone
    · intro hitems
      exact absurd hitems (hother items)

/-- To remove a key that is not there changes nothing. -/
theorem pop_of_absent {h : ObjectHeap} {n : ℕ} {key : String}
    (habsent : ∀ d, h.dict? n = some d → d.get? key = none) : h.pop n key = h := by
  unfold pop
  cases hd : h.dict? n with
  | none => rfl
  | some d =>
    have herase : d.erase key = d :=
      Dict.erase_of_not_mem ((Dict.get?_eq_none_iff d key).mp (habsent d hd))
    obtain ⟨hlt, hsame⟩ := List.getElem?_eq_some_iff.mp (dict?_eq_some.mp hd)
    dsimp only
    rw [herase, ← hsame, List.set_getElem_self]

/-- A copy reads as the object. -/
theorem reading_copy {h : ObjectHeap} (hscoped : h.Scoped) {n : ℕ} {o : Object}
    (hn : h[n]? = some o) : reading (h.alloc o) h.length = h.reading n := by
  obtain ⟨hlt, -⟩ := List.getElem?_eq_some_iff.mp hn
  have hrefs : ∀ m ∈ o.refs, m < h.length := fun m hm => (hscoped n o hn m hm).trans hlt
  have hread : o.read (values (h.alloc o)) = o.read h.values :=
    object_read_of_grown (values_append_begins h [o]) fun m hm => by
      rw [length_values]
      exact hrefs m hm
  rw [reading_eq (scoped_alloc hscoped hrefs) (getElem?_alloc h o), hread, reading_eq hscoped hn]

/-! ## What a merged dictionary holds -/

theorem mem_insert {α β : Type} [DecidableEq α] {k : α} {v : β} {l : List (α × β)} {e : α × β}
    (he : e ∈ Dict.insert k v l) : e = (k, v) ∨ e ∈ l := by
  induction l with
  | nil => exact .inl (List.mem_singleton.mp he)
  | cons first rest ih =>
    obtain ⟨k', v'⟩ := first
    rw [Dict.insert] at he
    split_ifs at he with hk
    · rcases List.mem_cons.mp he with rfl | he
      · exact .inl rfl
      · exact .inr (List.mem_cons_of_mem _ he)
    · rcases List.mem_cons.mp he with rfl | he
      · exact .inr List.mem_cons_self
      · exact (ih he).imp_right (List.mem_cons_of_mem _)

theorem mem_merge {α β : Type} [DecidableEq α] {d d' : Dict α β} {e : α × β}
    (he : e ∈ (d.merge d').entries) : e ∈ d.entries ∨ e ∈ d'.entries := by
  obtain ⟨entries⟩ := d'
  have hfold : e ∈ (entries.foldl (fun acc p => acc.set p.1 p.2) d).entries := he
  clear he
  induction entries generalizing d with
  | nil => exact .inl hfold
  | cons p entries ih =>
    rcases ih hfold with hset | hrest
    · rcases mem_insert hset with rfl | hd
      · exact .inr List.mem_cons_self
      · exact .inl hd
    · exact .inr (List.mem_cons_of_mem _ hrest)

theorem refs_merge {d d' : Dict String Slot} {n : ℕ} (hn : n ∈ (Object.dict (d.merge d')).refs) :
    n ∈ (Object.dict d).refs ∨ n ∈ (Object.dict d').refs := by
  obtain ⟨e, he, href⟩ := List.mem_filterMap.mp hn
  rcases mem_merge he with he | he
  · exact .inl (List.mem_filterMap.mpr ⟨e, he, href⟩)
  · exact .inr (List.mem_filterMap.mpr ⟨e, he, href⟩)

theorem merge_ne_nil {α β : Type} [DecidableEq α] {d : Dict α β} (hd : d.entries ≠ [])
    (d' : Dict α β) : (d.merge d').entries ≠ [] := by
  obtain ⟨entries⟩ := d'
  show (entries.foldl (fun acc p => acc.set p.1 p.2) d).entries ≠ []
  induction entries generalizing d with
  | nil => exact hd
  | cons p entries ih =>
    refine ih ?_
    obtain ⟨first | ⟨first, rest⟩⟩ := d
    · exact absurd rfl hd
    · show Dict.insert p.1 p.2 (first :: rest) ≠ []
      obtain ⟨k, v⟩ := first
      rw [Dict.insert]
      split_ifs <;> exact List.cons_ne_nil _ _

end ObjectHeap

end DeviceShell
