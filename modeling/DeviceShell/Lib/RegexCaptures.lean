import DeviceShell.Lib.RegexSearch

/-!
# What a match consumes and captures

A match consumes a text of the pattern's language, in which the assertions `\b` and `$` stand for the
empty text (`language_of_ways`). What a named group has captured is what its part of the pattern has
consumed, as long as no later part has a group of that name (`capture_of_ways`). So the language of a
group bounds what a program can read out of it, whatever the text is.
-/

namespace DeviceShell.Regex

/-- The texts that a pattern can consume. -/
inductive Language : Regex → List Char → Prop where
  | eps : Language eps []
  | chars {p : Char → Bool} {a : Char} (h : p a = true) : Language (chars p) [a]
  | seq {r s : Regex} {a b : List Char} (hr : Language r a) (hs : Language s b) :
      Language (seq r s) (a ++ b)
  | altLeft {r s : Regex} {a : List Char} (h : Language r a) : Language (alt r s) a
  | altRight {r s : Regex} {a : List Char} (h : Language s a) : Language (alt r s) a
  | starNil {greedy : Bool} {r : Regex} : Language (star greedy r) []
  | starCons {greedy : Bool} {r : Regex} {a b : List Char} (hr : Language r a)
      (hs : Language (star greedy r) b) : Language (star greedy r) (a ++ b)
  | group {name : String} {r : Regex} {a : List Char} (h : Language r a) :
      Language (group name r) a
  | boundary {p : Char → Bool} : Language (boundary p) []
  | atEnd : Language atEnd []

/-- A repetition consumes the texts of its iterations. -/
theorem language_of_repeatFrom {r : Regex} {greedy : Bool}
    (hways : ∀ c d, d ∈ ways r c → ∃ a, c.rest = a ++ d.rest ∧ Language r a) (n : ℕ) :
    ∀ c d, d ∈ repeatFrom (ways r) greedy n c →
      ∃ a, c.rest = a ++ d.rest ∧ Language (star greedy r) a := by
  induction n with
  | zero =>
    intro c d hd
    obtain rfl := List.mem_singleton.mp hd
    exact ⟨[], rfl, .starNil⟩
  | succ n ih =>
    intro c d hd
    rcases mem_repeatFrom_succ.mp hd with ⟨e, he, -, hrest⟩ | rfl
    · obtain ⟨a, ha, hra⟩ := hways c e he
      obtain ⟨b, hb, hsb⟩ := ih e d hrest
      refine ⟨a ++ b, ?_, .starCons hra hsb⟩
      rw [ha, hb, List.append_assoc]
    · exact ⟨[], rfl, .starNil⟩

/-- A match consumes a text of the pattern's language. -/
theorem language_of_ways (r : Regex) :
    ∀ c d, d ∈ ways r c → ∃ a, c.rest = a ++ d.rest ∧ Language r a := by
  induction r with
  | eps =>
    intro c d hd
    obtain rfl := List.mem_singleton.mp hd
    exact ⟨[], rfl, .eps⟩
  | chars p =>
    intro c d hd
    unfold ways at hd
    split at hd
    · cases hd
    · rename_i a rest hrest
      split at hd
      · rename_i ha
        obtain rfl := List.mem_singleton.mp hd
        exact ⟨[a], hrest, .chars ha⟩
      · cases hd
  | seq r s ihr ihs =>
    intro c d hd
    obtain ⟨e, he, hd⟩ := List.mem_flatMap.mp hd
    obtain ⟨a, ha, hra⟩ := ihr c e he
    obtain ⟨b, hb, hsb⟩ := ihs e d hd
    refine ⟨a ++ b, ?_, .seq hra hsb⟩
    rw [ha, hb, List.append_assoc]
  | alt r s ihr ihs =>
    intro c d hd
    rcases List.mem_append.mp hd with hd | hd
    · obtain ⟨a, ha, hra⟩ := ihr c d hd
      exact ⟨a, ha, .altLeft hra⟩
    · obtain ⟨a, ha, hsa⟩ := ihs c d hd
      exact ⟨a, ha, .altRight hsa⟩
  | star greedy r ih =>
    intro c d hd
    exact language_of_repeatFrom ih _ c d hd
  | group name r ih =>
    intro c d hd
    obtain ⟨e, he, rfl⟩ := List.mem_map.mp hd
    obtain ⟨a, ha, hra⟩ := ih c e he
    exact ⟨a, ha, .group hra⟩
  | boundary p =>
    intro c d hd
    unfold ways at hd
    split at hd
    · obtain rfl := List.mem_singleton.mp hd
      exact ⟨[], rfl, .boundary⟩
    · cases hd
  | atEnd =>
    intro c d hd
    unfold ways at hd
    split at hd
    · obtain rfl := List.mem_singleton.mp hd
      exact ⟨[], rfl, .atEnd⟩
    · cases hd

/-! ## Captures -/

/-- The names of a pattern's groups. -/
def groupNames : Regex → List String
  | seq r s => groupNames r ++ groupNames s
  | alt r s => groupNames r ++ groupNames s
  | star _ r => groupNames r
  | group name r => name :: groupNames r
  | _ => []

/-- The names in patterns one after the other. -/
theorem groupNames_all (rs : List Regex) : groupNames (all rs) = rs.flatMap groupNames := by
  induction rs with
  | nil => rfl
  | cons r rs ih =>
    show groupNames r ++ groupNames (all rs) = _
    rw [ih, List.flatMap_cons]

/-- A repetition leaves alone what its iterations do. -/
theorem group?_of_repeatFrom {name : String} {ways : Cursor → List Cursor} {greedy : Bool}
    (hways : ∀ c d, d ∈ ways c → d.group? name = c.group? name) (n : ℕ) :
    ∀ c d, d ∈ repeatFrom ways greedy n c → d.group? name = c.group? name := by
  induction n with
  | zero =>
    intro c d hd
    rw [List.mem_singleton.mp hd]
  | succ n ih =>
    intro c d hd
    rcases mem_repeatFrom_succ.mp hd with ⟨e, he, -, hrest⟩ | rfl
    · exact (ih e d hrest).trans (hways c e he)
    · rfl

/-- A pattern leaves the groups alone that it does not name. -/
theorem group?_of_ways {name : String} (r : Regex) (hname : name ∉ groupNames r) :
    ∀ c d, d ∈ ways r c → d.group? name = c.group? name := by
  induction r with
  | eps =>
    intro c d hd
    rw [List.mem_singleton.mp hd]
  | chars p =>
    intro c d hd
    unfold ways at hd
    split at hd
    · cases hd
    · split at hd
      · rw [List.mem_singleton.mp hd]
        rfl
      · cases hd
  | seq r s ihr ihs =>
    intro c d hd
    obtain ⟨hr, hs⟩ := not_or.mp (fun h => hname (List.mem_append.mpr h))
    obtain ⟨e, he, hd⟩ := List.mem_flatMap.mp hd
    exact (ihs hs e d hd).trans (ihr hr c e he)
  | alt r s ihr ihs =>
    intro c d hd
    obtain ⟨hr, hs⟩ := not_or.mp (fun h => hname (List.mem_append.mpr h))
    rcases List.mem_append.mp hd with hd | hd
    · exact ihr hr c d hd
    · exact ihs hs c d hd
  | star greedy r ih =>
    intro c d hd
    exact group?_of_repeatFrom (ih hname) _ c d hd
  | group other r ih =>
    intro c d hd
    obtain ⟨e, he, rfl⟩ := List.mem_map.mp hd
    obtain ⟨hne, hr⟩ := not_or.mp (fun h => hname (List.mem_cons.mpr h))
    refine Eq.trans ?_ (ih hr c e he)
    unfold Cursor.group?
    rw [List.lookup_cons, beq_false_of_ne hne]
  | boundary p =>
    intro c d hd
    unfold ways at hd
    split at hd
    · rw [List.mem_singleton.mp hd]
    · cases hd
  | atEnd =>
    intro c d hd
    unfold ways at hd
    split at hd
    · rw [List.mem_singleton.mp hd]
    · cases hd

/-- A group captures what its pattern consumes. -/
theorem capture_of_group {name : String} {r : Regex} {c d : Cursor}
    (h : d ∈ ways (group name r) c) :
    ∃ a, d.group? name = some (String.ofList a) ∧ Language r a := by
  obtain ⟨e, he, rfl⟩ := List.mem_map.mp h
  obtain ⟨a, ha, hra⟩ := language_of_ways r c e he
  refine ⟨a, ?_, hra⟩
  have htake : c.rest.take (c.rest.length - e.rest.length) = a := by
    rw [ha, List.length_append, Nat.add_sub_cancel, List.take_left]
  unfold Cursor.group?
  rw [List.lookup_cons, beq_self_eq_true, htake]

/-- In patterns one after the other, a group captures what its pattern consumes, when none of the
later ones has a group of its name. -/
theorem capture_of_ways {name : String} {r : Regex} (post : List Regex)
    (hpost : name ∉ post.flatMap groupNames) :
    ∀ (pre : List Regex) {c d : Cursor}, d ∈ ways (all (pre ++ group name r :: post)) c →
      ∃ a, d.group? name = some (String.ofList a) ∧ Language r a
  | [], c, d, h => by
    obtain ⟨e, he, hd⟩ := List.mem_flatMap.mp h
    obtain ⟨a, ha, hra⟩ := capture_of_group he
    have hrest := group?_of_ways (all post) (by rwa [groupNames_all]) e d hd
    exact ⟨a, hrest.trans ha, hra⟩
  | _ :: pre, c, d, h => by
    obtain ⟨e, -, hd⟩ := List.mem_flatMap.mp h
    exact capture_of_ways post hpost pre hd

/-- The same for patterns whose groups all have names of their own. -/
theorem capture_of_mem (name : String) {r : Regex} {rs : List Regex} {c d : Cursor}
    (h : d ∈ ways (all rs) c) (hmem : group name r ∈ rs) (hnodup : (rs.flatMap groupNames).Nodup) :
    ∃ a, d.group? name = some (String.ofList a) ∧ Language r a := by
  obtain ⟨pre, post, rfl⟩ := List.append_of_mem hmem
  rw [List.flatMap_append, List.flatMap_cons] at hnodup
  have hgroup := (List.nodup_append.mp hnodup).2.1
  have hpost : name ∉ post.flatMap groupNames := fun hname =>
    (List.nodup_append.mp hgroup).2.2 name List.mem_cons_self name hname rfl
  exact capture_of_ways post hpost pre h

/-! ## Matches -/

theorem mem_ways_of_matchStart {r : Regex} {s : String} {m : Cursor}
    (h : r.matchStart s = some m) : ∃ c, m ∈ ways r c :=
  ⟨_, List.mem_of_head? h⟩

theorem mem_ways_of_searchFrom {r : Regex} {before : Option Char} {s : List Char} {m : Cursor}
    (h : searchFrom r before s = some m) : ∃ c, m ∈ ways r c := by
  induction s generalizing before with
  | nil => exact ⟨_, List.mem_of_head? h⟩
  | cons a rest ih =>
    unfold searchFrom at h
    split at h
    · rename_i c hc
      cases h
      exact ⟨_, List.mem_of_head? hc⟩
    · exact ih h

theorem mem_ways_of_search {r : Regex} {s : String} {m : Cursor} (h : r.search s = some m) :
    ∃ c, m ∈ ways r c := mem_ways_of_searchFrom h

theorem mem_ways_of_findAllFrom {r : Regex} {m : Cursor} (n : ℕ) {before : Option Char}
    {s : List Char} (h : m ∈ findAllFrom r n before s) : ∃ c, m ∈ ways r c := by
  induction n generalizing before s with
  | zero => cases h
  | succ n ih =>
    unfold findAllFrom at h
    split at h
    · rename_i c hc
      rcases List.mem_cons.mp h with rfl | h
      · exact mem_ways_of_searchFrom hc
      · exact ih h
    · cases h

theorem mem_ways_of_findAll {r : Regex} {s : String} {m : Cursor} (h : m ∈ r.findAll s) :
    ∃ c, m ∈ ways r c := mem_ways_of_findAllFrom _ h

/-! ## Languages -/

theorem language_chars {p : Char → Bool} {a : List Char} (h : Language (chars p) a) :
    ∃ c, a = [c] ∧ p c = true := by
  cases h with
  | chars hc => exact ⟨_, rfl, hc⟩

theorem language_seq {r s : Regex} {a : List Char} (h : Language (seq r s) a) :
    ∃ b c, a = b ++ c ∧ Language r b ∧ Language s c := by
  cases h with
  | seq hr hs => exact ⟨_, _, rfl, hr, hs⟩

/-- A repetition of a character class consumes characters of the class. -/
theorem language_star_chars {p : Char → Bool} {greedy : Bool} {a : List Char}
    (h : Language (star greedy (chars p)) a) : ∀ c ∈ a, p c = true := by
  generalize hr : star greedy (chars p) = r at h
  induction h with
  | starNil =>
    intro c hc
    cases hc
  | starCons hone hmore _ ih =>
    cases hr
    obtain ⟨a, rfl, ha⟩ := language_chars hone
    intro c hc
    rcases List.mem_cons.mp hc with rfl | hc
    · exact ha
    · exact ih rfl c hc
  | _ => cases hr

/-- One or more of a character class. -/
theorem language_plus_chars {p : Char → Bool} {greedy : Bool} {a : List Char}
    (h : Language (plus greedy (chars p)) a) : a ≠ [] ∧ ∀ c ∈ a, p c = true := by
  obtain ⟨b, more, rfl, hb, hmore⟩ := language_seq h
  obtain ⟨c, rfl, hc⟩ := language_chars hb
  refine ⟨List.cons_ne_nil _ _, fun c' hc' => ?_⟩
  rcases List.mem_cons.mp hc' with rfl | hc'
  · exact hc
  · exact language_star_chars hmore c' hc'

theorem language_opt {r : Regex} {a : List Char} (h : Language (opt r) a) :
    Language r a ∨ a = [] := by
  unfold opt at h
  cases h with
  | altLeft h => exact .inl h
  | altRight h =>
    cases h
    exact .inr rfl

/-- A text as it stands consumes itself. -/
theorem language_exact {s : String} {a : List Char} (h : Language (exact s) a) : a = s.toList := by
  unfold exact text at h
  generalize s.toList = cs at h
  induction cs generalizing a with
  | nil =>
    cases h
    rfl
  | cons c cs ih =>
    obtain ⟨b, rest, rfl, hb, hrest⟩ := language_seq h
    obtain ⟨c', rfl, hc'⟩ := language_chars hb
    rw [← eq_of_beq hc', ih hrest]
    rfl

end DeviceShell.Regex
