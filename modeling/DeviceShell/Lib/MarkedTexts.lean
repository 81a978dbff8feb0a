import DeviceShell.Lib.References
import DeviceShell.Lib.Fallible

/-!
# Marked texts

A text whose references are found is a list of characters and of paths, and `render` writes it out
again. Writing out and finding are inverse to each other on a text that was scanned; on any other
list of marks, what is written out may read differently: characters that stand next to each other,
or next to a reference, can form a reference. `paths_scanChars_iff` says that the references of the
text tell whether this happens: they are those of the marks exactly if the text is scanned into the
marks. The reason is that scanning never loses a reference (`length_paths_le`): every `}` that ends
one also ends the match that was begun before it.
-/

namespace DeviceShell

/-- A text in which references are marked. -/
abbrev Marks := List (Char ⊕ List Char)

/-- `[^}]+`. -/
def IsPath (path : List Char) : Prop := path ≠ [] ∧ '}' ∉ path

/-- How a mark is written. -/
def markChars : Char ⊕ List Char → List Char
  | .inl c => [c]
  | .inr path => '$' :: '{' :: (path ++ ['}'])

/-- How a marked text is written. -/
def render (marks : Marks) : List Char := marks.flatMap markChars

/-- The paths of the references. -/
def paths (marks : Marks) : List (List Char) := marks.filterMap Sum.getRight?

/-- Every reference is one that the pattern matches. -/
def Readable (marks : Marks) : Prop := ∀ path, .inr path ∈ marks → IsPath path

/-- A text with its references found. -/
def scanChars (cs : List Char) : Marks := scanFrom matchReference cs.length cs

@[simp] theorem render_nil : render [] = [] := rfl

@[simp] theorem render_char (c : Char) (marks : Marks) :
    render (.inl c :: marks) = c :: render marks := rfl

@[simp] theorem render_path (path : List Char) (marks : Marks) :
    render (.inr path :: marks) = '$' :: '{' :: (path ++ '}' :: render marks) := by
  simp [render, markChars]

@[simp] theorem paths_nil : paths [] = [] := rfl

@[simp] theorem paths_char (c : Char) (marks : Marks) : paths (.inl c :: marks) = paths marks := rfl

@[simp] theorem paths_path (path : List Char) (marks : Marks) :
    paths (.inr path :: marks) = path :: paths marks := rfl

theorem Readable.tail {mark : Char ⊕ List Char} {marks : Marks} (h : Readable (mark :: marks)) :
    Readable marks := fun path hmem => h path (List.mem_cons_of_mem mark hmem)

theorem Readable.head {path : List Char} {marks : Marks} (h : Readable (.inr path :: marks)) :
    IsPath path := h path List.mem_cons_self

/-! ## The pattern -/

/-- What the pattern matches. -/
theorem matchReference_eq_some {cs path after : List Char} :
    matchReference cs = some (path, after) ↔
      IsPath path ∧ cs = '$' :: '{' :: (path ++ '}' :: after) := by
  constructor
  · intro h
    unfold matchReference at h
    split at h
    · rename_i rest
      have hsplit : rest.takeWhile (· ≠ '}') ++ rest.dropWhile (· ≠ '}') = rest :=
        List.takeWhile_append_dropWhile
      have hno : '}' ∉ rest.takeWhile (· ≠ '}') := by
        intro hmem
        have hne := List.mem_takeWhile_imp hmem
        simp at hne
      revert h
      dsimp only
      split
      · rename_i c before after' htake hdrop
        intro h
        obtain ⟨rfl, rfl⟩ : rest.takeWhile (· ≠ '}') = path ∧ after' = after := by simpa using h
        refine ⟨⟨?_, hno⟩, ?_⟩
        · rw [htake]
          exact List.cons_ne_nil _ _
        · rw [← hdrop, hsplit]
      · intro h
        cases h
    · cases h
  · rintro ⟨⟨hne, hno⟩, rfl⟩
    have hall : ∀ c ∈ path, decide (c ≠ '}') = true := by
      intro c hc
      have hother : c ≠ '}' := fun heq => hno (heq ▸ hc)
      simpa using hother
    have htake : (path ++ '}' :: after).takeWhile (· ≠ '}') = path := by
      rw [List.takeWhile_append_of_pos hall]
      simp
    have hdrop : (path ++ '}' :: after).dropWhile (· ≠ '}') = '}' :: after := by
      rw [List.dropWhile_append_of_pos hall]
      simp
    obtain ⟨c, before, rfl⟩ := List.exists_cons_of_ne_nil hne
    simp only [matchReference, htake, hdrop]

/-- What remains after a match is shorter. -/
theorem length_of_matchReference {cs path after : List Char}
    (h : matchReference cs = some (path, after)) : after.length + 3 ≤ cs.length := by
  obtain ⟨-, rfl⟩ := matchReference_eq_some.1 h
  simp only [List.length_cons, List.length_append]
  omega

/-! ## Scanning -/

/-- More than the length of a text adds nothing. -/
theorem scanFrom_of_le (n : ℕ) {cs : List Char} (h : cs.length ≤ n) :
    scanFrom matchReference n cs = scanChars cs := by
  unfold scanChars
  -- Two bounds that are large enough give the same, by induction on the first one.
  have hsame : ∀ (n m : ℕ) (cs : List Char), cs.length ≤ n → cs.length ≤ m →
      scanFrom matchReference n cs = scanFrom matchReference m cs := by
    intro n
    induction n with
    | zero =>
      intro m cs hn _
      obtain rfl : cs = [] := List.length_eq_zero_iff.1 (by omega)
      cases m <;> rfl
    | succ n ih =>
      intro m cs hn hm
      cases cs with
      | nil => cases m <;> rfl
      | cons c cs =>
        obtain ⟨m, rfl⟩ : ∃ k, m = k + 1 := ⟨m - 1, by rw [List.length_cons] at hm; omega⟩
        rw [List.length_cons] at hn hm
        unfold scanFrom
        cases hmatch : matchReference (c :: cs) with
        | none =>
          dsimp only
          rw [ih m cs (by omega) (by omega)]
        | some found =>
          obtain ⟨path, after⟩ := found
          have hshort := length_of_matchReference hmatch
          rw [List.length_cons] at hshort
          dsimp only
          rw [ih m after (by omega) (by omega)]
  exact hsame n cs.length cs h le_rfl

@[simp] theorem scanChars_nil : scanChars [] = [] := rfl

/-- No reference begins at a character. -/
theorem scanChars_of_none {c : Char} {cs : List Char} (h : matchReference (c :: cs) = none) :
    scanChars (c :: cs) = .inl c :: scanChars cs := by
  have hfirst : scanFrom matchReference (cs.length + 1) (c :: cs) =
      .inl c :: scanFrom matchReference cs.length cs := by
    rw [scanFrom, h]
  exact hfirst

/-- A reference begins at a character. -/
theorem scanChars_of_some {cs path after : List Char}
    (h : matchReference cs = some (path, after)) :
    scanChars cs = .inr path :: scanChars after := by
  have hshort := length_of_matchReference h
  cases cs with
  | nil =>
    rw [List.length_nil] at hshort
    omega
  | cons c cs =>
    rw [List.length_cons] at hshort
    have hlength : after.length ≤ cs.length := by omega
    have hrest := scanFrom_of_le cs.length hlength
    have hfirst : scanFrom matchReference (cs.length + 1) (c :: cs) =
        .inr path :: scanFrom matchReference cs.length after := by
      rw [scanFrom, h]
    rw [← hrest]
    exact hfirst

/-- A text is scanned into the reference at its beginning and what follows. -/
theorem scanChars_path {path after : List Char} (h : IsPath path) :
    scanChars ('$' :: '{' :: (path ++ '}' :: after)) = .inr path :: scanChars after :=
  scanChars_of_some (matchReference_eq_some.2 ⟨h, rfl⟩)

/-- Induction on a text as it is scanned. -/
theorem scan_induction {motive : List Char → Prop} (nil : motive [])
    (char : ∀ c cs, matchReference (c :: cs) = none → motive cs → motive (c :: cs))
    (path : ∀ path after, IsPath path → motive after →
      motive ('$' :: '{' :: (path ++ '}' :: after))) (cs : List Char) : motive cs := by
  induction hn : cs.length using Nat.strong_induction_on generalizing cs with
  | _ n ih =>
    subst hn
    cases cs with
    | nil => exact nil
    | cons c cs =>
      cases hmatch : matchReference (c :: cs) with
      | none => exact char c cs hmatch (ih cs.length (by simp) cs rfl)
      | some found =>
        have hshort := length_of_matchReference hmatch
        obtain ⟨hpath, heq⟩ := matchReference_eq_some.1 hmatch
        rw [heq]
        exact path _ _ hpath (ih found.2.length (by omega) found.2 rfl)

/-- A text is what its marks write. -/
theorem render_scanChars (cs : List Char) : render (scanChars cs) = cs := by
  induction cs using scan_induction with
  | nil => rfl
  | char c cs hmatch ih => rw [scanChars_of_none hmatch, render_char, ih]
  | path path after hpath ih => rw [scanChars_path hpath, render_path, ih]

/-- Marks that were found are readable. -/
theorem readable_scanChars (cs : List Char) : Readable (scanChars cs) := by
  induction cs using scan_induction with
  | nil =>
    intro path hmem
    cases hmem
  | char c cs hmatch ih =>
    rw [scanChars_of_none hmatch]
    intro path hmem
    rcases List.mem_cons.1 hmem with heq | hmem
    · cases heq
    · exact ih path hmem
  | path path after hpath ih =>
    rw [scanChars_path hpath]
    intro other hmem
    rcases List.mem_cons.1 hmem with heq | hmem
    · cases heq
      exact hpath
    · exact ih other hmem

/-! ## Scanning what was written -/

/-- Where the first `}` of a marked text stands: at a character before all references, or at the
end of the first reference. -/
theorem render_eq_append {marks : Marks} (hmarks : Readable marks) {before after : List Char}
    (hbefore : '}' ∉ before) (h : render marks = before ++ '}' :: after) :
    ∃ rest, Readable rest ∧ rest.length < marks.length ∧ after = render rest ∧
      (paths rest = paths marks ∨
        ∃ path, paths marks = path :: paths rest ∧ path.length < before.length) := by
  induction marks generalizing before with
  | nil =>
    have hlength := congrArg List.length h
    simp at hlength
  | cons mark marks ih =>
    cases mark with
    | inl c =>
      rw [render_char] at h
      cases before with
      | nil =>
        obtain ⟨-, hafter⟩ : c = '}' ∧ render marks = after := by simpa using h
        exact ⟨marks, hmarks.tail, by simp, hafter.symm, .inl rfl⟩
      | cons b before =>
        obtain ⟨-, hrest⟩ : c = b ∧ render marks = before ++ '}' :: after := by simpa using h
        have hno : '}' ∉ before := fun hmem => hbefore (List.mem_cons_of_mem _ hmem)
        obtain ⟨rest, hreadable, hshorter, hafter, hpaths⟩ := ih hmarks.tail hno hrest
        refine ⟨rest, hreadable, by rw [List.length_cons]; omega, hafter, ?_⟩
        rcases hpaths with hsame | ⟨path, hfirst, hlonger⟩
        · exact .inl hsame
        · exact .inr ⟨path, hfirst, by rw [List.length_cons]; omega⟩
    | inr path =>
      have hpath := hmarks.head
      have hdollar : '}' ∉ '$' :: '{' :: path := by
        have hne : '}' ∉ path := hpath.2
        simp [hne]
      have hwritten : ('$' :: '{' :: path) ++ '}' :: render marks = before ++ '}' :: after := by
        rw [← h, render_path]
        rfl
      have hsplit : ('$' :: '{' :: path) = before ∧ render marks = after := by
        rcases List.append_eq_append_iff.1 hwritten with ⟨more, hmore, hrest⟩ | ⟨more, hmore, hrest⟩
        · cases more with
          | nil => simp_all
          | cons m more =>
            obtain ⟨rfl, -⟩ : '}' = m ∧ _ := List.cons.inj hrest
            exact absurd (hmore ▸ List.mem_append_right _ List.mem_cons_self) hbefore
        · cases more with
          | nil => simp_all
          | cons m more =>
            obtain ⟨rfl, -⟩ : '}' = m ∧ _ := List.cons.inj hrest
            exact absurd (hmore ▸ List.mem_append_right _ List.mem_cons_self) hdollar
      obtain ⟨hbeforeEq, hafter⟩ := hsplit
      refine ⟨marks, hmarks.tail, by simp, hafter.symm, .inr ⟨path, rfl, ?_⟩⟩
      rw [← hbeforeEq, List.length_cons, List.length_cons]
      omega

/-- A match that begins at a character of a marked text ends before all references, or with the
first one, which it contains. -/
theorem match_at_char {c : Char} {marks : Marks} (hmarks : Readable marks) {path after : List Char}
    (h : matchReference (render (.inl c :: marks)) = some (path, after)) :
    ∃ rest, Readable rest ∧ rest.length < marks.length ∧ after = render rest ∧
      (paths rest = paths marks ∨
        ∃ own, paths marks = own :: paths rest ∧ own.length < path.length) := by
  obtain ⟨hpath, heq⟩ := matchReference_eq_some.1 h
  rw [render_char] at heq
  obtain ⟨-, hrest⟩ := List.cons.inj heq
  -- The brace after the dollar sign is a character, for a reference begins with a dollar sign.
  cases marks with
  | nil => cases hrest
  | cons mark marks =>
    cases mark with
    | inr own =>
      rw [render_path] at hrest
      exact absurd (List.cons.inj hrest).1 (by decide)
    | inl brace =>
      obtain ⟨-, hrest⟩ := List.cons.inj hrest
      obtain ⟨rest, hreadable, hshorter, hafter, hpaths⟩ :=
        render_eq_append hmarks.tail hpath.2 hrest
      exact ⟨rest, hreadable, by rw [List.length_cons]; omega, hafter, hpaths⟩

/-- No reference is lost when a marked text is scanned. -/
theorem length_paths_le {marks : Marks} (hmarks : Readable marks) :
    (paths marks).length ≤ (paths (scanChars (render marks))).length := by
  induction hn : marks.length using Nat.strong_induction_on generalizing marks with
  | _ n ih =>
    subst hn
    cases marks with
    | nil => simp
    | cons mark marks =>
      have htail := ih marks.length (by simp) hmarks.tail rfl
      cases mark with
      | inr path =>
        rw [render_path, scanChars_path hmarks.head, paths_path, paths_path, List.length_cons,
          List.length_cons]
        omega
      | inl c =>
        rw [paths_char]
        cases hmatch : matchReference (render (.inl c :: marks)) with
        | none =>
          have hscan : scanChars (render (.inl c :: marks)) = .inl c :: scanChars (render marks) :=
            scanChars_of_none hmatch
          rw [hscan, paths_char]
          exact htail
        | some found =>
          obtain ⟨path, after⟩ := found
          obtain ⟨rest, hreadable, hshorter, rfl, hpaths⟩ := match_at_char hmarks.tail hmatch
          have hrest := ih rest.length (by rw [List.length_cons]; omega) hreadable rfl
          rw [scanChars_of_some hmatch, paths_path, List.length_cons]
          rcases hpaths with hsame | ⟨own, hfirst, -⟩
          · rw [hsame] at hrest
            omega
          · rw [hfirst, List.length_cons]
            omega

/-- A marked text has just its own references when it is scanned exactly if it is scanned into its
marks. -/
theorem paths_scanChars_iff {marks : Marks} (hmarks : Readable marks) :
    paths (scanChars (render marks)) = paths marks ↔ scanChars (render marks) = marks := by
  refine ⟨fun h => ?_, fun h => by rw [h]⟩
  induction marks with
  | nil => rfl
  | cons mark marks ih =>
    cases mark with
    | inr path =>
      rw [render_path, scanChars_path hmarks.head, paths_path, paths_path] at h
      rw [render_path, scanChars_path hmarks.head, ih hmarks.tail (List.cons.inj h).2]
    | inl c =>
      cases hmatch : matchReference (render (.inl c :: marks)) with
      | none =>
        have hscan : scanChars (render (.inl c :: marks)) = .inl c :: scanChars (render marks) :=
          scanChars_of_none hmatch
        rw [hscan, paths_char, paths_char] at h
        rw [hscan, ih hmarks.tail h]
      | some found =>
        -- The match is one reference more, or a longer one than the first of the marks.
        obtain ⟨path, after⟩ := found
        obtain ⟨rest, hreadable, -, rfl, hpaths⟩ := match_at_char hmarks.tail hmatch
        have hcount := length_paths_le hreadable
        rw [scanChars_of_some hmatch, paths_path, paths_char] at h
        rcases hpaths with hsame | ⟨own, hfirst, hlonger⟩
        · have hlength := congrArg List.length h
          rw [List.length_cons, ← hsame] at hlength
          omega
        · rw [hfirst] at h
          have heq : path = own := (List.cons.inj h).1
          rw [heq] at hlonger
          omega

/-! ## Exact references and substitution -/

theorem mem_paths {path : List Char} {marks : Marks} : path ∈ paths marks ↔ .inr path ∈ marks := by
  unfold paths
  rw [List.mem_filterMap]
  constructor
  · rintro ⟨mark, hmem, hpath⟩
    cases mark with
    | inl c => cases hpath
    | inr other =>
      cases hpath
      exact hmem
  · intro hmem
    exact ⟨.inr path, hmem, rfl⟩

theorem references_eq (text : String) :
    references text = (paths (scanChars text.toList)).map String.ofList := by
  show (scanChars text.toList).filterMap _ = _
  generalize scanChars text.toList = marks
  induction marks with
  | nil => rfl
  | cons mark marks ih => cases mark <;> simp [ih]

/-- A text is a reference exactly if that is all that is found in it. -/
theorem exactReference_eq_some {text path : String} :
    exactReference text = some path ↔ scanChars text.toList = [.inr path.toList] := by
  have hmatch : exactReference text = some path ↔
      matchReference text.toList = some (path.toList, []) := by
    unfold exactReference
    cases hfound : matchReference text.toList with
    | none => simp
    | some found =>
      obtain ⟨own, after⟩ := found
      cases after with
      | nil =>
        have hiff : String.ofList own = path ↔ own = path.toList :=
          ⟨fun h => by rw [← h, String.toList_ofList], fun h => by rw [h, String.ofList_toList]⟩
        simpa using hiff
      | cons c after => simp
  rw [hmatch]
  constructor
  · intro h
    rw [scanChars_of_some h, scanChars_nil]
  · intro h
    have hreadable := readable_scanChars text.toList
    have hwritten := render_scanChars text.toList
    rw [h] at hreadable hwritten
    rw [← hwritten]
    exact matchReference_eq_some.2 ⟨hreadable.head, by simp⟩

/-- What is not scanned into one reference is none. -/
theorem exactReference_ofList {cs : List Char}
    (h : ∀ reference, scanChars cs ≠ [.inr reference]) :
    exactReference (String.ofList cs) = none := by
  refine Option.eq_none_iff_forall_ne_some.2 fun reference href => ?_
  have hscan := exactReference_eq_some.1 href
  rw [String.toList_ofList] at hscan
  exact h _ hscan

/-- What is written for a path is the reference that the path was read from. -/
theorem referenceText_of_exact {text path : String} (h : exactReference text = some path) :
    referenceText path = text := by
  have hwritten := render_scanChars text.toList
  rw [exactReference_eq_some.1 h, render_path, render_nil] at hwritten
  have hchars : (referenceText path).toList = text.toList := by
    rw [← hwritten]
    simp [referenceText]
  exact String.toList_inj.1 hchars

section

variable {ε : Type}

/-- What is put in the place of a mark. -/
def markText (f : String → Except ε String) : Char ⊕ List Char → Except ε String
  | .inl c => .ok (String.singleton c)
  | .inr path => f (String.ofList path)

/-- A text is put in the place of every reference, if there is one for each. -/
def joinMarks (f : String → Except ε String) (marks : Marks) : Except ε String := do
  return String.join (← marks.mapM (markText f))

theorem substitute_eq (f : String → Except ε String) (text : String) :
    substitute matchReference f text = joinMarks f (scanChars text.toList) := rfl

theorem joinMarks_cons (f : String → Except ε String) (mark : Char ⊕ List Char) (marks : Marks) :
    joinMarks f (mark :: marks) = do
      let first ← markText f mark
      return first ++ (← joinMarks f marks) := by
  unfold joinMarks
  rw [List.mapM_cons]
  cases markText f mark with
  | error e => rfl
  | ok first =>
    cases marks.mapM (markText f) with
    | error e => rfl
    | ok parts => exact congrArg Except.ok String.join_cons

/-- Characters are put in for themselves. -/
theorem joinMarks_chars (f : String → Except ε String) (cs : List Char) (marks : Marks) :
    joinMarks f (cs.map .inl ++ marks) = do return String.ofList cs ++ (← joinMarks f marks) := by
  induction cs with
  | nil =>
    cases hrest : joinMarks f marks with
    | error e => exact hrest
    | ok rest =>
      have hempty : String.ofList [] ++ rest = rest := by simp
      exact hrest.trans (congrArg Except.ok hempty.symm)
  | cons c cs ih =>
    rw [List.map_cons, List.cons_append, joinMarks_cons, ih]
    cases joinMarks f marks with
    | error e => rfl
    | ok rest =>
      refine congrArg Except.ok ?_
      rw [← String.append_assoc, String.singleton_eq_ofList, ← String.ofList_append]
      rfl

/-- A text is put in for every reference when there is one for each. -/
theorem ok_of_joinMarks {f : String → Except ε String} {marks : Marks} {s : String}
    (h : joinMarks f marks = .ok s) : ∀ path ∈ paths marks, ∃ t, f (String.ofList path) = .ok t := by
  intro path hpath
  obtain ⟨parts, hparts, -⟩ := Except.bind_eq_ok.1 h
  exact Except.ok_of_mem_mapM hparts (mem_paths.1 hpath)

/-! ## Putting in characters -/

/-- Characters in the place of the paths for which there are some. -/
def placeMark (g : List Char → Option (List Char)) : Char ⊕ List Char → Marks
  | .inl c => [.inl c]
  | .inr path => match g path with
    | some cs => cs.map .inl
    | none => [.inr path]

/-- Characters in the place of the references for which there are some. -/
def place (g : List Char → Option (List Char)) (marks : Marks) : Marks :=
  marks.flatMap (placeMark g)

theorem paths_append (marks others : Marks) : paths (marks ++ others) = paths marks ++ paths others :=
  List.filterMap_append

theorem render_append (marks others : Marks) :
    render (marks ++ others) = render marks ++ render others := List.flatMap_append

theorem paths_chars (cs : List Char) : paths (cs.map .inl) = [] := by
  induction cs with
  | nil => rfl
  | cons c cs ih => rw [List.map_cons, paths_char, ih]

theorem render_chars (cs : List Char) : render (cs.map .inl) = cs := by
  induction cs with
  | nil => rfl
  | cons c cs ih => rw [List.map_cons, render_char, ih]

theorem place_cons (g : List Char → Option (List Char)) (mark : Char ⊕ List Char) (marks : Marks) :
    place g (mark :: marks) = placeMark g mark ++ place g marks := rfl

/-- The references that are left are those for which there are no characters. -/
theorem paths_place (g : List Char → Option (List Char)) (marks : Marks) :
    paths (place g marks) = (paths marks).filter fun path => (g path).isNone := by
  induction marks with
  | nil => rfl
  | cons mark marks ih =>
    rw [place_cons, paths_append, ih]
    cases mark with
    | inl c => rfl
    | inr path => cases hpath : g path <;> simp [placeMark, hpath, paths_chars]

theorem Readable.place {marks : Marks} (h : Readable marks) (g : List Char → Option (List Char)) :
    Readable (place g marks) := by
  intro path hmem
  have hpath := mem_paths.2 hmem
  rw [paths_place] at hpath
  exact h path (mem_paths.1 (List.mem_of_mem_filter hpath))

/-- Putting texts into a text into which characters were put. -/
theorem joinMarks_place (f : String → Except ε String) (g : List Char → Option (List Char))
    (marks : Marks) :
    joinMarks f (place g marks) =
      joinMarks (fun path => (g path.toList).elim (f path) fun cs => .ok (String.ofList cs))
        marks := by
  induction marks with
  | nil => rfl
  | cons mark marks ih =>
    rw [place_cons, joinMarks_cons, ← ih]
    cases mark with
    | inl c => exact joinMarks_cons f (.inl c) (place g marks)
    | inr path =>
      cases hpath : g path with
      | some cs =>
        simp only [placeMark, markText, hpath, String.toList_ofList]
        exact joinMarks_chars f cs (place g marks)
      | none =>
        simp only [placeMark, markText, hpath, String.toList_ofList]
        exact joinMarks_cons f (.inr path) (place g marks)

/-- Only what is put in for the references matters. -/
theorem joinMarks_congr {f g : String → Except ε String} {marks : Marks}
    (h : ∀ path ∈ paths marks, f (String.ofList path) = g (String.ofList path)) :
    joinMarks f marks = joinMarks g marks := by
  induction marks with
  | nil => rfl
  | cons mark marks ih =>
    have hrest := ih fun path hpath => h path (by cases mark <;> simp [hpath])
    have hfirst : markText f mark = markText g mark := by
      cases mark with
      | inl c => rfl
      | inr path => exact h path (by simp)
    rw [joinMarks_cons, joinMarks_cons, hrest, hfirst]

/-- The text into which characters were put, and in which the other references stay. -/
theorem joinMarks_eq_render {f : String → Except ε String} {g : List Char → Option (List Char)}
    {marks : Marks} (h : ∀ path ∈ paths marks, f (String.ofList path) =
      .ok ((g path).elim (referenceText (String.ofList path)) String.ofList)) :
    joinMarks f marks = .ok (String.ofList (render (place g marks))) := by
  induction marks with
  | nil => rfl
  | cons mark marks ih =>
    have hrest := ih fun path hpath => h path (by cases mark <;> simp [hpath])
    have hfirst : markText f mark = .ok (String.ofList (render (placeMark g mark))) := by
      cases mark with
      | inl c => exact congrArg Except.ok String.singleton_eq_ofList
      | inr path =>
        have hpath := h path (by simp)
        cases hg : g path with
        | some cs =>
          simp only [hg, Option.elim] at hpath
          simp only [markText, hpath, placeMark, hg, render_chars]
        | none =>
          simp only [hg, Option.elim] at hpath
          have hwritten : referenceText (String.ofList path) =
              String.ofList (render [.inr path]) := by
            refine String.toList_inj.1 ?_
            simp [referenceText]
          simp only [markText, hpath, placeMark, hg, hwritten]
    rw [joinMarks_cons, place_cons, render_append, String.ofList_append, hrest, hfirst]
    rfl

/-- A text without references. -/
theorem joinMarks_of_paths_nil (f : String → Except ε String) {marks : Marks}
    (h : paths marks = []) : joinMarks f marks = .ok (String.ofList (render marks)) := by
  have hsame : place (fun _ => none) marks = marks := by
    have hmark : placeMark (fun _ => none) = fun mark => [mark] := by
      funext mark
      cases mark <;> rfl
    unfold place
    rw [hmark, List.flatMap_singleton']
  have hjoin := joinMarks_eq_render (f := f) (g := fun _ => none) (h ▸ List.forall_mem_nil _)
  rwa [hsame] at hjoin

end

end DeviceShell
