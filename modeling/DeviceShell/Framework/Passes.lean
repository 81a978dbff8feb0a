import DeviceShell.Framework.Templates
import DeviceShell.Lib.MarkedTexts

/-!
# Two passes over a template

A template is resolved twice when some of its references are left for later: the first pass puts
the values of the others in their place, and the second one resolves what came of it. It cannot tell
what was put in from what was there. `found` is what a resolution finds in a value; `Sound` says of a
text of the template that in the values put into it nothing is found, and nothing is with what stands
around them. `passed_iff` says that this is just when the second pass finds the references that were
left and no others, and `traverse_of_sound` that it then gives what one pass gives that reads both
kinds of references where they belong.
-/

namespace DeviceShell.Framework

open Value (texts mapTexts mapTexts_congr mapTexts_self texts_mapTexts traverseTexts put
  traverse_congr traverse_mapTexts traverse_self traverse_eq_mapTexts ok_of_traverse)

/-- Lists made of pieces, of which those of the one are never longer than those of the other. -/
theorem flatMap_eq_iff {α β : Type} {f g : α → List β} {xs : List α}
    (h : ∀ x ∈ xs, (g x).length ≤ (f x).length) :
    xs.flatMap f = xs.flatMap g ↔ ∀ x ∈ xs, f x = g x := by
  have hlength : ∀ ys : List α, (∀ y ∈ ys, (g y).length ≤ (f y).length) →
      (ys.flatMap g).length ≤ (ys.flatMap f).length := by
    intro ys hys
    induction ys with
    | nil => simp
    | cons y ys ih =>
      have hy := hys y List.mem_cons_self
      have hrest := ih fun z hz => hys z (List.mem_cons_of_mem _ hz)
      simp only [List.flatMap_cons, List.length_append]
      omega
  constructor
  · intro heq
    induction xs with
    | nil => simp
    | cons x xs ih =>
      have hx := h x List.mem_cons_self
      have hxs : ∀ y ∈ xs, (g y).length ≤ (f y).length := fun y hy => h y (List.mem_cons_of_mem _ hy)
      have hrest := hlength xs hxs
      simp only [List.flatMap_cons] at heq
      have htotal := congrArg List.length heq
      simp only [List.length_append] at htotal
      obtain ⟨hfirst, hothers⟩ := List.append_inj heq (by omega)
      exact List.forall_mem_cons.2 ⟨hfirst, ih hxs hothers⟩
  · intro heq
    exact List.flatMap_congr heq

variable [PyLib]

/-- What references read, by their paths. -/
abbrev Look := String → Except PyError Value

/-- What the resolution puts in the place of a text, for the values that references read. -/
def fillText (look : Look) (path : List String) (text : String) : Except PyError Value :=
  match exactReference text with
  | some reference => look reference
  | none =>
    if templateKeys.contains ((path.getLast?).getD "") && !(references text).isEmpty then do
      return .str (← substitute matchReference (fun p => do return (← look p).pyStr) text)
    else .ok (.str text)

theorem resolveText_eq (r : Resolution) (path : List String) (text : String) :
    resolveText r path text = fillText (fun p => resolveReference r p path) path text := rfl

theorem Alike.fillText {path other : List String} (h : Alike path other) (look : Look)
    (text : String) : fillText look path text = fillText look other text := by
  have hkey := (h []).2
  rw [List.append_nil, List.append_nil] at hkey
  simp only [Framework.fillText, hkey]

/-! ## What is found -/

/-- What a resolution finds in a text. -/
inductive Finding where
  /-- The text is parsed. -/
  | document (text : String)
  /-- The text is a reference. -/
  | whole (reference : String)
  /-- The text is a template with a reference. -/
  | part (reference : String)

/-- What a resolution finds in a text at the given place. -/
def foundInText (path : List String) (text : String) : List Finding :=
  match parsed? path text with
  | some _ => [.document text]
  | none => match exactReference text with
    | some reference => [.whole reference]
    | none =>
      if templateKeys.contains ((path.getLast?).getD "") then (references text).map .part else []

/-- What a resolution finds in a value at the given place. -/
def found (path : List String) (v : Value) : List Finding :=
  (v.texts path).flatMap fun e => foundInText e.1 e.2

theorem found_mapTexts (f : List String → String → Value) (path : List String) (v : Value) :
    found path (mapTexts f path v) = (v.texts path).flatMap fun e => found e.1 (f e.1 e.2) := by
  unfold found
  rw [texts_mapTexts, List.flatMap_assoc]

/-- A value in which nothing is found stays as it is. -/
theorem traverse_of_found_nil {path : List String} {v : Value} (h : found path v = [])
    (hv : v.Keyed) (look : Look) :
    Plain path v ∧ traverseTexts (fillText look) path v = .ok v := by
  have hnone : ∀ e ∈ v.texts path, foundInText e.1 e.2 = [] := List.flatMap_eq_nil_iff.1 h
  have htext : ∀ e ∈ v.texts path, parsed? e.1 e.2 = none ∧
      fillText look e.1 e.2 = .ok (.str e.2) := by
    intro e he
    have hempty := hnone e he
    unfold foundInText at hempty
    unfold fillText
    cases hparsed : parsed? e.1 e.2 with
    | some parsed => simp [hparsed] at hempty
    | none =>
      cases hexact : exactReference e.2 with
      | some reference => simp [hparsed, hexact] at hempty
      | none =>
        have hif : ¬(templateKeys.contains ((e.1.getLast?).getD "") &&
            !(references e.2).isEmpty) = true := by
          simpa [hparsed, hexact] using hempty
        exact ⟨rfl, if_neg hif⟩
  exact ⟨fun e he => (htext e he).1, traverse_self hv fun e he => (htext e he).2⟩

section

variable (later : String → Bool) (look : Look)

/-- Whether a reference that is found is left for later. -/
def Finding.isLater : Finding → Bool
  | .document _ => false
  | .whole reference => later reference
  | .part reference => later reference

/-- What the first pass puts in for a reference: itself, if it is left for later. -/
def firstLook : Look := fun p => if later p then .ok (.str (referenceText p)) else look p

/-- What a single pass puts in, when the references that are left read other values. -/
def bothLook (look' : Look) : Look := fun p => if later p then look' p else look p

/-- The characters that the first pass puts in for a reference in a text. -/
def given (path : List Char) : Option (List Char) :=
  if later (String.ofList path) then none
  else some (match look (String.ofList path) with
    | .ok v => v.pyStr.toList
    | .error _ => [])

/-- Nothing is found in the values that the first pass puts into a text: in the value of a text that
is a reference, nothing, and in a text with references just those that are left, and it is not
one itself. -/
def Sound (path : List String) (text : String) : Prop :=
  match exactReference text with
  | some reference => later reference = true ∨ ∀ v, look reference = .ok v → found path v = []
  | none =>
    templateKeys.contains ((path.getLast?).getD "") = true → references text ≠ [] →
      scanChars (render (place (given later look) (scanChars text.toList))) =
          place (given later look) (scanChars text.toList) ∧
        ∀ reference, place (given later look) (scanChars text.toList) ≠ [.inr reference]

/-- What the second pass finds in what the first one put in the place of a text, beside what was
left in it. -/
structure Passed (path : List String) (text : String) (w : Value) : Prop where
  length_le : ((foundInText path text).filter (Finding.isLater later)).length ≤
    (found path w).length
  found_iff : found path w = (foundInText path text).filter (Finding.isLater later) ↔
    Sound later look path text
  again (look' : Look) (hsound : Sound later look path text) :
    traverseTexts (fillText look') path w = fillText (bothLook later look look') path text

end

variable {later : String → Bool} {look : Look} {path : List String} {text reference : String}
  {w : Value}

/-! ## One text -/

/-- What is found in a text that stays. -/
theorem found_text (path : List String) (text : String) :
    found path (.str text) = foundInText path text := by
  simp [found, texts]

/-- A reference that is left. -/
theorem passed_left (hplain : parsed? path text = none)
    (hexact : exactReference text = some reference) (hlater : later reference = true)
    (h : fillText (firstLook later look) path text = .ok w) : Passed later look path text w := by
  have hwritten : w = .str text := by
    simp only [fillText, hexact, firstLook, if_pos hlater, referenceText_of_exact hexact] at h
    exact (Except.ok.inj h).symm
  have hfound : foundInText path text = [.whole reference] := by
    simp only [foundInText, hplain, hexact]
  have hown : (foundInText path text).filter (Finding.isLater later) = [.whole reference] := by
    rw [hfound]
    simp [Finding.isLater, hlater]
  have hsound : Sound later look path text := by
    simp only [Sound, hexact]
    exact .inl hlater
  subst hwritten
  refine ⟨?_, ?_, fun look' _ => ?_⟩
  · rw [hown, found_text, hfound]
  · rw [hown, found_text, hfound]
    exact iff_of_true rfl hsound
  · simp only [traverseTexts, fillText, hexact, bothLook, if_pos hlater]

/-- A reference in whose place the first pass puts a value. -/
theorem passed_put (hplain : parsed? path text = none)
    (hexact : exactReference text = some reference) (hlater : later reference = false)
    (hkeyed : ∀ p v, look p = .ok v → v.Keyed)
    (h : fillText (firstLook later look) path text = .ok w) : Passed later look path text w := by
  have hread : look reference = .ok w := by
    simpa only [fillText, hexact, firstLook, hlater, Bool.false_eq_true, if_false] using h
  have hown : (foundInText path text).filter (Finding.isLater later) = [] := by
    simp [foundInText, hplain, hexact, Finding.isLater, hlater]
  have hsound : Sound later look path text ↔ found path w = [] := by
    simp only [Sound, hexact, hlater, Bool.false_eq_true, false_or, hread]
    exact ⟨fun hall => hall w rfl, fun hnil v hv => Except.ok.inj hv ▸ hnil⟩
  refine ⟨?_, ?_, fun look' hs => ?_⟩
  · rw [hown]
    exact Nat.zero_le _
  · rw [hown, hsound]
  · have hstays := (traverse_of_found_nil (hsound.1 hs) (hkeyed reference w hread) look').2
    rw [hstays]
    simp only [fillText, hexact, bothLook, hlater, Bool.false_eq_true, if_false, hread]

/-- A text that is neither a reference nor a template with references. -/
theorem passed_plain (hplain : parsed? path text = none) (hexact : exactReference text = none)
    (htemplate : templateKeys.contains ((path.getLast?).getD "") = true → references text = [])
    (h : fillText (firstLook later look) path text = .ok w) : Passed later look path text w := by
  have hif : ¬(templateKeys.contains ((path.getLast?).getD "") &&
      !(references text).isEmpty) = true := by
    simpa using htemplate
  have hstays : ∀ look' : Look, fillText look' path text = .ok (.str text) := by
    intro look'
    simp only [fillText, hexact, if_neg hif]
  have hwritten : w = .str text := by
    rw [hstays] at h
    exact (Except.ok.inj h).symm
  have hfound : foundInText path text = [] := by
    simp only [foundInText, hplain, hexact]
    by_cases hkey : templateKeys.contains ((path.getLast?).getD "") = true
    · rw [if_pos hkey, htemplate hkey]
      rfl
    · rw [if_neg hkey]
  have hsound : Sound later look path text := by
    simp only [Sound, hexact]
    exact fun hkey href => absurd (htemplate hkey) href
  subst hwritten
  refine ⟨?_, ?_, fun look' _ => ?_⟩
  · rw [found_text, hfound]
    exact le_rfl
  · rw [found_text, hfound]
    exact iff_of_true rfl hsound
  · simp only [traverseTexts, hstays]

/-- No template is parsed. -/
theorem parsed?_template (hkey : templateKeys.contains ((path.getLast?).getD "") = true)
    (text : String) : parsed? path text = none := by
  unfold parsed?
  refine if_neg fun hpath => ?_
  rw [hpath] at hkey
  revert hkey
  decide

/-- What the first pass makes of a template. -/
theorem fillText_template (hexact : exactReference text = none)
    (hkey : templateKeys.contains ((path.getLast?).getD "") = true) (href : references text ≠ [])
    (h : fillText (firstLook later look) path text = .ok w) :
    w = .str (String.ofList (render (place (given later look) (scanChars text.toList)))) ∧
      ∀ own ∈ paths (scanChars text.toList), later (String.ofList own) = false →
        ∃ v, look (String.ofList own) = .ok v := by
  have hif : (templateKeys.contains ((path.getLast?).getD "") &&
      !(references text).isEmpty) = true := by
    rw [hkey]
    simpa using href
  simp only [fillText, hexact, if_pos hif] at h
  obtain ⟨joined, hjoined, hw⟩ := Except.bind_eq_ok.1 h
  rw [substitute_eq] at hjoined
  have hread := ok_of_joinMarks hjoined
  have hlook : ∀ own ∈ paths (scanChars text.toList), later (String.ofList own) = false →
      ∃ v, look (String.ofList own) = .ok v := by
    intro own hown hlater
    obtain ⟨t, ht⟩ := hread own hown
    obtain ⟨v, hv, -⟩ := Except.bind_eq_ok.1 ht
    refine ⟨v, ?_⟩
    simpa only [firstLook, hlater, Bool.false_eq_true, if_false] using hv
  have hput : joinMarks (fun p => do return (← firstLook later look p).pyStr)
      (scanChars text.toList) = .ok _ :=
    joinMarks_eq_render (g := given later look) fun own hown => by
      cases hlater : later (String.ofList own) with
      | true =>
        simp only [firstLook, given, hlater, if_true, Option.elim]
        rfl
      | false =>
        obtain ⟨v, hv⟩ := hlook own hown hlater
        simp only [firstLook, given, hlater, Bool.false_eq_true, if_false, hv, Option.elim,
          String.ofList_toList]
        rfl
  rw [hput] at hjoined
  refine ⟨?_, hlook⟩
  rw [Except.ok.inj hjoined]
  exact (Except.ok.inj hw).symm

/-- The references of a template that are left are those of its text with the values put in. -/
theorem own_template (later : String → Bool) (look : Look) (hexact : exactReference text = none)
    (hkey : templateKeys.contains ((path.getLast?).getD "") = true) :
    (foundInText path text).filter (Finding.isLater later) =
      (paths (place (given later look) (scanChars text.toList))).map fun own =>
        .part (String.ofList own) := by
  have hnone : ∀ own : List Char, (given later look own).isNone = later (String.ofList own) := by
    intro own
    unfold given
    cases later (String.ofList own) <;> rfl
  have hfound : foundInText path text =
      (paths (scanChars text.toList)).map fun own => .part (String.ofList own) := by
    simp only [foundInText, parsed?_template hkey, hexact, if_pos hkey, references_eq, List.map_map,
      Function.comp_def]
  rw [hfound, paths_place, List.filter_map]
  simp only [Function.comp_def, Finding.isLater, hnone]

/-- What the second pass finds in a template with the values put in. -/
theorem found_template (hkey : templateKeys.contains ((path.getLast?).getD "") = true)
    {cs : List Char} (h : ∀ reference, scanChars cs ≠ [.inr reference]) :
    found path (.str (String.ofList cs)) =
      (paths (scanChars cs)).map fun own => .part (String.ofList own) := by
  rw [found_text]
  simp only [foundInText, parsed?_template hkey, exactReference_ofList h, if_pos hkey,
    references_eq, List.map_map, Function.comp_def, String.toList_ofList]

/-- A template that has become a reference. -/
theorem found_became (hkey : templateKeys.contains ((path.getLast?).getD "") = true)
    {cs reference : List Char} (h : scanChars cs = [.inr reference]) :
    found path (.str (String.ofList cs)) = [.whole (String.ofList reference)] := by
  have hexact : exactReference (String.ofList cs) = some (String.ofList reference) := by
    rw [exactReference_eq_some, String.toList_ofList, String.toList_ofList, h]
  rw [found_text]
  simp only [foundInText, parsed?_template hkey, hexact]

/-- A template is what is joined of its marks, also when there are no references. -/
theorem fillText_marks (hkey : templateKeys.contains ((path.getLast?).getD "") = true)
    {marks : Marks} (hscan : scanChars (render marks) = marks)
    (hother : ∀ reference, marks ≠ [.inr reference]) (look : Look) :
    fillText look path (String.ofList (render marks)) = do
      return .str (← joinMarks (fun p => do return (← look p).pyStr) marks) := by
  have hnone : exactReference (String.ofList (render marks)) = none :=
    exactReference_ofList fun reference heq => hother reference (hscan ▸ heq)
  have hrefs : references (String.ofList (render marks)) = (paths marks).map String.ofList := by
    rw [references_eq, String.toList_ofList, hscan]
  simp only [fillText, hnone, hkey, Bool.true_and, hrefs, substitute_eq, String.toList_ofList, hscan]
  cases hpaths : paths marks with
  | nil =>
    rw [joinMarks_of_paths_nil _ hpaths]
    rfl
  | cons own rest => rfl

/-- What the second pass makes of a template with the values put in, if it finds in it what was
left. -/
theorem fillText_again (hexact : exactReference text = none)
    (hkey : templateKeys.contains ((path.getLast?).getD "") = true)
    (hlook : ∀ own ∈ paths (scanChars text.toList), later (String.ofList own) = false →
      ∃ v, look (String.ofList own) = .ok v)
    (hscan : scanChars (render (place (given later look) (scanChars text.toList))) =
      place (given later look) (scanChars text.toList))
    (hother : ∀ reference, place (given later look) (scanChars text.toList) ≠ [.inr reference])
    (look' : Look) :
    fillText look' path
        (String.ofList (render (place (given later look) (scanChars text.toList)))) =
      fillText (bothLook later look look') path text := by
  have hself : scanChars (render (scanChars text.toList)) = scanChars text.toList := by
    rw [render_scanChars]
  have hownOther : ∀ reference, scanChars text.toList ≠ [.inr reference] := by
    intro reference heq
    have hsome : exactReference text = some (String.ofList reference) := by
      rw [exactReference_eq_some, String.toList_ofList, heq]
    rw [hexact] at hsome
    cases hsome
  have hboth := fillText_marks hkey hself hownOther (bothLook later look look')
  rw [render_scanChars, String.ofList_toList] at hboth
  rw [hboth, fillText_marks hkey hscan hother look', joinMarks_place]
  have hjoin : joinMarks (fun p => (given later look p.toList).elim
        (do return (← look' p).pyStr) fun cs => .ok (String.ofList cs)) (scanChars text.toList) =
      joinMarks (fun p => do return (← bothLook later look look' p).pyStr)
        (scanChars text.toList) := by
    refine joinMarks_congr fun own hown => ?_
    rw [String.toList_ofList]
    cases hlater : later (String.ofList own) with
    | true => simp only [given, bothLook, hlater, if_true, Option.elim]
    | false =>
      obtain ⟨v, hv⟩ := hlook own hown hlater
      simp only [given, bothLook, hlater, Bool.false_eq_true, if_false, hv, Option.elim,
        String.ofList_toList]
      rfl
  rw [hjoin]

/-- A template with references. -/
theorem passed_template (hexact : exactReference text = none)
    (hkey : templateKeys.contains ((path.getLast?).getD "") = true) (href : references text ≠ [])
    (h : fillText (firstLook later look) path text = .ok w) : Passed later look path text w := by
  obtain ⟨rfl, hlook⟩ := fillText_template hexact hkey href h
  have hreadable : Readable (place (given later look) (scanChars text.toList)) :=
    (readable_scanChars text.toList).place _
  have hown := own_template later look hexact hkey
  have hagain := fillText_again hexact hkey hlook
  have hsoundIff : Sound later look path text ↔
      scanChars (render (place (given later look) (scanChars text.toList))) =
          place (given later look) (scanChars text.toList) ∧
        ∀ reference, place (given later look) (scanChars text.toList) ≠ [.inr reference] := by
    simp only [Sound, hexact]
    exact ⟨fun hall => hall hkey href, fun hboth _ _ => hboth⟩
  have hcount := length_paths_le hreadable
  have hiff := paths_scanChars_iff hreadable
  generalize place (given later look) (scanChars text.toList) = marks at *
  by_cases hbecame : ∃ reference, scanChars (render marks) = [.inr reference]
  · -- A reference is no part of a template, and the marks would be one reference.
    obtain ⟨reference, hscan⟩ := hbecame
    have hunsound : ¬Sound later look path text := fun hs =>
      (hsoundIff.1 hs).2 reference ((hsoundIff.1 hs).1 ▸ hscan)
    have hfound := found_became hkey hscan
    refine ⟨?_, ?_, fun look' hs => absurd hs hunsound⟩
    · rw [hscan] at hcount
      rw [hown, hfound, List.length_map]
      simpa using hcount
    · rw [hown, hfound]
      refine iff_of_false (fun heq => ?_) hunsound
      cases hpaths : paths marks with
      | nil => simp [hpaths] at heq
      | cons own rest => simp [hpaths] at heq
  · have hother : ∀ reference, scanChars (render marks) ≠ [.inr reference] := by
      simpa using hbecame
    have hfound := found_template hkey hother
    have hinj : Function.Injective fun own : List Char => Finding.part (String.ofList own) :=
      fun own other heq => String.ofList_injective (Finding.part.inj heq)
    refine ⟨?_, ?_, fun look' hs => ?_⟩
    · rw [hown, hfound, List.length_map, List.length_map]
      exact hcount
    · rw [hown, hfound, (List.map_injective_iff.2 hinj).eq_iff, hiff, hsoundIff]
      exact ⟨fun hscan => ⟨hscan, fun reference heq => hother reference (hscan.trans heq)⟩,
        And.left⟩
    · obtain ⟨hscan, hmarks⟩ := hsoundIff.1 hs
      exact hagain hscan hmarks look'

/-- What comes of a text that is not parsed. -/
theorem passed (hplain : parsed? path text = none) (hkeyed : ∀ p v, look p = .ok v → v.Keyed)
    (h : fillText (firstLook later look) path text = .ok w) : Passed later look path text w := by
  cases hexact : exactReference text with
  | some reference =>
    cases hlater : later reference with
    | true => exact passed_left hplain hexact hlater h
    | false => exact passed_put hplain hexact hlater hkeyed h
  | none =>
    by_cases htemplate : templateKeys.contains ((path.getLast?).getD "") = true ∧ references text ≠ []
    · exact passed_template hexact htemplate.1 htemplate.2 h
    · exact passed_plain hplain hexact (by simpa using htemplate) h

/-! ## A value -/

section

variable {v : Value}

/-- The values put in for the texts of a template. -/
theorem passed_texts (hplain : Plain path v) (hkeyed : ∀ p u, look p = .ok u → u.Keyed)
    (h : traverseTexts (fillText (firstLook later look)) path v = .ok w) :
    ∀ e ∈ v.texts path, Passed later look e.1 e.2 (put (fillText (firstLook later look)) e.1 e.2) := by
  intro e he
  obtain ⟨u, hu⟩ := ok_of_traverse path v w h e he
  rw [Value.put_of_ok hu]
  exact passed (hplain e he) hkeyed hu

/-- The second pass finds in a value what was left in it, and nothing else, exactly if in the values
that were put in nothing is found. -/
theorem passed_iff (hplain : Plain path v) (hv : v.Keyed)
    (hkeyed : ∀ p u, look p = .ok u → u.Keyed)
    (h : traverseTexts (fillText (firstLook later look)) path v = .ok w) :
    found path w = (found path v).filter (Finding.isLater later) ↔
      ∀ e ∈ v.texts path, Sound later look e.1 e.2 := by
  have htexts := passed_texts hplain hkeyed h
  obtain rfl := traverse_eq_mapTexts hv h
  have hown : (found path v).filter (Finding.isLater later) =
      (v.texts path).flatMap fun e => (foundInText e.1 e.2).filter (Finding.isLater later) :=
    List.filter_flatMap
  rw [found_mapTexts, hown, flatMap_eq_iff fun e he => (htexts e he).length_le]
  exact forall₂_congr fun e he => (htexts e he).found_iff

/-- The second pass then gives what a single pass gives. -/
theorem traverse_of_sound (hplain : Plain path v) (hv : v.Keyed)
    (hkeyed : ∀ p u, look p = .ok u → u.Keyed)
    (h : traverseTexts (fillText (firstLook later look)) path v = .ok w)
    (hsound : ∀ e ∈ v.texts path, Sound later look e.1 e.2) (look' : Look) :
    traverseTexts (fillText look') path w =
      traverseTexts (fillText (bothLook later look look')) path v := by
  have htexts := passed_texts hplain hkeyed h
  obtain rfl := traverse_eq_mapTexts hv h
  rw [traverse_mapTexts]
  exact traverse_congr path v fun e he => (htexts e he).again look' (hsound e he)

/-- What is found in a value of which nothing is parsed has no document in it, and conversely. -/
theorem plain_of_found (h : ∀ text, Finding.document text ∉ found path v) : Plain path v := by
  intro e he
  cases hparsed : parsed? e.1 e.2 with
  | none => rfl
  | some parsed =>
    have hmem : Finding.document e.2 ∈ found path v := by
      refine List.mem_flatMap.2 ⟨e, he, ?_⟩
      simp [foundInText, hparsed]
    exact absurd hmem (h e.2)

end

end DeviceShell.Framework
