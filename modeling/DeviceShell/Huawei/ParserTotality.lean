import DeviceShell.Huawei.Parsers
import DeviceShell.Lib.Numerals
import DeviceShell.Lib.RegexCaptures

/-!
# When the parsers return

The patterns of the parsers leave a field of digits and commas to `int` or `float`. Such a field need
not hold a digit, and it may spell a number that is too large. `Readable` says of an output that this
does not happen in the lines that are read as files nor in the match that decides about the free
space; these are just the outputs that the parsers return on (`parsersReturn_iff`).
-/

namespace DeviceShell.Huawei

open Regex

variable [PyLib] [PyText]

/-! ## What is read -/

/-- A field of a match. -/
def captured (m : Cursor) (name : String) : String := (m.group? name).getD ""

/-- The match that decides about the free space. -/
def freeSpaceMatch? (output : String) : Option Cursor :=
  Patterns.freeSpace.findSome? fun pattern => (pattern.findAll output).getLast?

/-- The match of a numbered line that is read as a file. -/
def numberedEntry? (line : String) : Option Cursor :=
  (Patterns.numberedDirLine.matchStart line).filter fun m =>
    strip (captured m "name") ∉ ["", ".", ".."]

/-- Whether a text has a digit. -/
def hasDigit (s : String) : Bool := s.toList.any isDigit

/-- The factor of a unit. -/
def unitFactor (unit : String) : ℤ := (multipliers.lookup (PyText.lower unit)).getD 1

variable [PyNumbers]

open PyNumbers

/-- A field that `int` reads. -/
def SizeReadable (size : String) : Prop :=
  hasDigit size = true ∧ (removeChar ',' size).toList.length ≤ maxStrDigits

/-- A field whose number of bytes a float can hold. -/
def BytesReadable (value unit : String) : Prop :=
  hasDigit value = true ∧
    numeralValue (removeChar ',' value).toList * unitFactor unit < (limit : ℚ)

/-- A line whose size, if it is read as a file, is readable. -/
def LineReadable (line : String) : Prop :=
  match numberedEntry? line with
  | some m => SizeReadable (captured m "size")
  | none => ∀ m, Patterns.simpleSizeLine.search line = some m →
      BytesReadable (captured m "size") (captured m "unit")

/-- An output with readable numbers. -/
structure Readable (output : String) : Prop where
  free : ∀ m, freeSpaceMatch? output = some m →
    BytesReadable (captured m "value") (captured m "unit")
  lines : ∀ line ∈ splitlines output, LineReadable line

/-- The parsers that convert a number return on an output, and the files that they list are well
formed. The others have no way to raise. -/
structure ParsersReturn (output storage : String) : Prop where
  free : ∃ free, findFreeSpaceBytes output = .ok free
  entries : ∃ entries, parseDirEntries output storage = .ok entries
  /-- For every package, and every expected size that a float can hold. -/
  contains : ∀ (packageName : String) (expectedSize : ℤ), (expectedSize : ℚ) < limit →
    ∃ present, dirContainsPackage output storage packageName expectedSize = .ok present
  wellFormed : ∀ entries, parseDirEntries output storage = .ok entries → ∀ entry ∈ entries,
    entry.name ≠ "" ∧ 0 ≤ entry.sizeBytes ∧
      entry.path = normalizeStorage storage ++ posixName entry.name

/-! ## The fields -/

omit [PyText] in
/-- What a field of digits and commas, perhaps with a point and digits, is without its commas: a
numeral if it has a digit, and nothing if it has none. -/
theorem numeral_of_value {a : List Char} (h : Language
    (seq Patterns.groupedDigits (opt (seq (exact ".") (plus true Patterns.digit)))) a) :
    (hasDigit (String.ofList a) = true →
      isNumeral (removeChar ',' (String.ofList a)).toList = true) ∧
    (hasDigit (String.ofList a) = false → removeChar ',' (String.ofList a) = "") := by
  obtain ⟨g, f, rfl, hg, hf⟩ := language_seq h
  obtain ⟨-, hgrouped⟩ := language_plus_chars hg
  have hcomma (c : Char) (hc : isDigit c = true) : c ≠ ',' := by
    rintro rfl
    rw [isDigit, digit_comma] at hc
    cases hc
  have hpoint : isDigit '.' = false := by
    rw [isDigit, digit_point]
    rfl
  -- Without the commas, the first part is digits.
  have hwhole : ∀ c ∈ g.filter (fun c => c ≠ ','), isDigit c = true := by
    intro c hc
    obtain ⟨hmem, hne⟩ := List.mem_filter.mp hc
    have hor := hgrouped c hmem
    rw [Bool.or_eq_true] at hor
    exact hor.resolve_right (by simpa using hne)
  have hfilter : (removeChar ',' (String.ofList (g ++ f))).toList =
      g.filter (fun c => c ≠ ',') ++ f.filter fun c => c ≠ ',' := by
    rw [removeChar, String.toList_ofList, String.toList_ofList, List.filter_append]
  have hdrop (rest : List Char) : (g.filter (fun c => c ≠ ',') ++ rest).dropWhile isDigit =
      rest.dropWhile isDigit := List.dropWhile_append_of_pos hwhole
  have hany : hasDigit (String.ofList (g ++ f)) = (g.any isDigit || f.any isDigit) := by
    rw [hasDigit, String.toList_ofList, List.any_append]
  rcases language_opt hf with hf | rfl
  · -- With a point there are digits after it.
    obtain ⟨p, ds, rfl, hp, hds⟩ := language_seq hf
    obtain rfl := language_exact hp
    obtain ⟨hne, hdigits⟩ := language_plus_chars hds
    have hkept : ((".").toList ++ ds).filter (fun c => c ≠ ',') = '.' :: ds := by
      refine List.filter_eq_self.mpr fun c hc => ?_
      rcases List.mem_cons.mp hc with rfl | hc
      · decide
      · simpa using hcomma c (hdigits c hc)
    have hsome : ((".").toList ++ ds).any isDigit = true := by
      obtain ⟨c, hc⟩ := List.exists_mem_of_ne_nil ds hne
      exact List.any_eq_true.mpr ⟨c, List.mem_cons_of_mem _ hc, hdigits c hc⟩
    constructor
    · intro _
      rw [hfilter, hkept]
      unfold isNumeral
      rw [hdrop, List.dropWhile_cons_of_neg (by rw [hpoint]; exact Bool.false_ne_true)]
      have hall : ds.all isDigit = true := List.all_eq_true.mpr hdigits
      simp [hall, hne]
    · intro hnone
      rw [hany, hsome, Bool.or_true] at hnone
      cases hnone
  · rw [List.append_nil] at hfilter hany ⊢
    have hanyg : hasDigit (String.ofList g) = g.any isDigit := by
      rw [hasDigit, String.toList_ofList]
    rw [List.filter_nil, List.append_nil] at hfilter
    constructor
    · intro hdigit
      rw [hanyg] at hdigit
      obtain ⟨c, hc, hcd⟩ := List.any_eq_true.mp hdigit
      have hmem : c ∈ g.filter (fun c => c ≠ ',') :=
        List.mem_filter.mpr ⟨hc, by simpa using hcomma c hcd⟩
      have hnil := hdrop []
      rw [List.append_nil] at hnil
      rw [hfilter]
      unfold isNumeral
      rw [hnil]
      simpa using ⟨c, hc, hcomma c hcd⟩
    · intro hdigit
      rw [hanyg] at hdigit
      have hempty : g.filter (fun c => c ≠ ',') = [] := by
        refine List.filter_eq_nil_iff.mpr fun c hc hne => ?_
        have hcd := hwhole c (List.mem_filter.mpr ⟨hc, hne⟩)
        rw [List.any_eq_false] at hdigit
        exact hdigit c hc hcd
      rw [hempty] at hfilter
      exact String.toList_injective hfilter

omit [PyText] [PyNumbers] in
/-- Digits and commas are such a field. -/
theorem value_of_grouped {a : List Char} (h : Language Patterns.groupedDigits a) : Language
    (seq Patterns.groupedDigits (opt (seq (exact ".") (plus true Patterns.digit)))) a := by
  have hvalue := Language.seq h (Language.altRight (r := seq (exact ".") (plus true Patterns.digit))
    Language.eps)
  rwa [List.append_nil] at hvalue

omit [PyText] [PyNumbers] in
/-- Without its commas, a field of digits and commas is digits. -/
theorem digits_of_grouped {a : List Char} (h : Language Patterns.groupedDigits a) :
    ∀ c ∈ (removeChar ',' (String.ofList a)).toList, isDigit c = true := by
  obtain ⟨-, hgrouped⟩ := language_plus_chars h
  intro c hc
  rw [removeChar, String.toList_ofList, String.toList_ofList] at hc
  obtain ⟨hmem, hne⟩ := List.mem_filter.mp hc
  have hor := hgrouped c hmem
  rw [Bool.or_eq_true] at hor
  exact hor.resolve_right (by simpa using hne)

omit [PyLib] [PyNumbers] in
/-- Every unit is a power of two. -/
theorem unitFactor_eq_pow (unit : String) : ∃ k, k ≤ 40 ∧ unitFactor unit = 2 ^ k := by
  unfold unitFactor
  cases hfactor : multipliers.lookup (PyText.lower unit) with
  | none => exact ⟨0, by omega, rfl⟩
  | some n =>
    obtain ⟨before, after, hsplit, -⟩ := List.lookup_eq_some_iff.mp hfactor
    have hmem : n ∈ multipliers.map Prod.snd := by
      rw [hsplit]
      simp
    have hall : ∀ n ∈ multipliers.map Prod.snd, n ∈ ([0, 10, 20, 30, 40].map fun k => (2 ^ k : ℤ)) := by
      decide
    obtain ⟨k, hk, rfl⟩ := List.mem_map.mp (hall n hmem)
    refine ⟨k, ?_, rfl⟩
    simp only [List.mem_cons, List.not_mem_nil, or_false] at hk
    omega

/-! ## Numbers -/

/-- `_to_bytes` on a field of the patterns. -/
theorem toBytes_iff {a : List Char} (h : Language
    (seq Patterns.groupedDigits (opt (seq (exact ".") (plus true Patterns.digit)))) a)
    (unit : String) :
    ((∃ n, toBytes (String.ofList a) unit = .ok n) ↔ BytesReadable (String.ofList a) unit) ∧
      ∀ n, toBytes (String.ofList a) unit = .ok n → 0 ≤ n := by
  obtain ⟨hnumeral, hempty⟩ := numeral_of_value h
  obtain ⟨k, hk, hfactor⟩ := unitFactor_eq_pow unit
  have hbytes : toBytes (String.ofList a) unit =
      scaledInt (removeChar ',' (String.ofList a)) (2 ^ k) := by
    rw [← hfactor]
    rfl
  have hcast : ((2 ^ k : ℤ) : ℚ) = 2 ^ k := by
    push_cast
    rfl
  rw [hbytes, BytesReadable, hfactor, hcast]
  cases hdigit : hasDigit (String.ofList a) with
  | false =>
    rw [hempty hdigit, scaledInt_empty]
    refine ⟨?_, fun n hn => by cases hn⟩
    simp
  | true =>
    rw [scaledInt_numeral (hnumeral hdigit) hk]
    have hvalue := numeralValue_nonneg (removeChar ',' (String.ofList a)).toList
    have hscaled : (0 : ℚ) ≤
        toNearest (numeralValue (removeChar ',' (String.ofList a)).toList) * 2 ^ k :=
      mul_nonneg (toNearest_nonneg hvalue) (by positivity)
    by_cases hlimit : numeralValue (removeChar ',' (String.ofList a)).toList * 2 ^ k < limit
    · rw [if_pos hlimit]
      refine ⟨by simp [hlimit], fun n hn => ?_⟩
      cases hn
      exact Int.floor_nonneg.mpr (toNearest_nonneg hscaled)
    · rw [if_neg hlimit]
      refine ⟨by simp [hlimit], fun n hn => by cases hn⟩

omit [PyText] in
/-- `int` on a field of digits and commas. -/
theorem size_iff {a : List Char} (h : Language Patterns.groupedDigits a) :
    ((∃ n, (Value.str (removeChar ',' (String.ofList a))).toInt = .ok n) ↔
        SizeReadable (String.ofList a)) ∧
      ∀ n, (Value.str (removeChar ',' (String.ofList a))).toInt = .ok n → 0 ≤ n := by
  have hdigits := digits_of_grouped h
  obtain ⟨hnumeral, hempty⟩ := numeral_of_value (value_of_grouped h)
  refine ⟨?_, fun n hn => toInt_digits_nonneg hdigits hn⟩
  rw [toInt_digits_iff hdigits, SizeReadable, and_congr_left_iff]
  intro _
  cases hdigit : hasDigit (String.ofList a) with
  | false => simp [hempty hdigit]
  | true =>
    have hne : removeChar ',' (String.ofList a) ≠ "" := by
      intro hnil
      have hread := hnumeral hdigit
      rw [hnil] at hread
      cases hread
    simpa using hne

/-! ## The free space -/

omit [PyNumbers] in
/-- The field that a deciding match gives to `float`. -/
theorem value_of_freeSpaceMatch {output : String} {m : Cursor}
    (h : freeSpaceMatch? output = some m) :
    ∃ a, captured m "value" = String.ofList a ∧ Language
      (seq Patterns.groupedDigits (opt (seq (exact ".") (plus true Patterns.digit)))) a := by
  obtain ⟨pattern, hpattern, hm⟩ := List.exists_of_findSome?_eq_some h
  obtain ⟨c, hc⟩ := mem_ways_of_findAll (List.mem_of_getLast? hm)
  have hfield : ∃ rs, pattern = all rs ∧ Patterns.value ∈ rs ∧
      rs.flatMap groupNames = ["value", "unit"] := by
    simp only [Patterns.freeSpace, List.mem_cons, List.not_mem_nil, or_false] at hpattern
    rcases hpattern with rfl | rfl | rfl | rfl | rfl | rfl <;>
      exact ⟨_, rfl, by simp, rfl⟩
  obtain ⟨rs, rfl, hmem, hnames⟩ := hfield
  obtain ⟨a, ha, hlanguage⟩ := capture_of_mem "value" hc hmem (by rw [hnames]; decide)
  exact ⟨a, by rw [captured, ha, Option.getD_some], hlanguage⟩

theorem findFreeSpaceBytes_iff (output : String) :
    (∃ free, findFreeSpaceBytes output = .ok free) ↔
      ∀ m, freeSpaceMatch? output = some m →
        BytesReadable (captured m "value") (captured m "unit") := by
  have hunfold : findFreeSpaceBytes output = match freeSpaceMatch? output with
      | some m => do return some (← toBytes (captured m "value") (captured m "unit"))
      | none => return none := rfl
  rw [hunfold]
  cases hmatch : freeSpaceMatch? output with
  | none =>
    refine ⟨fun _ m hm => ?_, fun _ => ⟨none, rfl⟩⟩
    cases hm
  | some m =>
    obtain ⟨a, ha, hlanguage⟩ := value_of_freeSpaceMatch hmatch
    have hiff := (toBytes_iff hlanguage (captured m "unit")).1
    rw [← ha] at hiff
    dsimp only
    constructor
    · rintro ⟨free, hfree⟩ m' hm'
      cases hm'
      obtain ⟨n, hn, -⟩ := Except.bind_eq_ok.mp hfree
      exact hiff.mp ⟨n, hn⟩
    · intro hread
      obtain ⟨n, hn⟩ := hiff.mpr (hread m rfl)
      exact ⟨some n, by rw [hn]; rfl⟩

/-! ## The files -/

omit [PyLib] [PyText] [PyNumbers] in
/-- The file that a numbered line is read as. -/
def numberedFile (storage : String) (m : Cursor) (size : ℤ) : PackageFileEntry where
  path := joinStoragePath storage (strip (captured m "name"))
  name := strip (captured m "name")
  sizeBytes := size
  storage := storage
  modifiedText := strip (captured m "date")

omit [PyLib] [PyText] [PyNumbers] in
/-- The file that a line with a plain size is read as. -/
def simpleFile (storage : String) (m : Cursor) (size : ℤ) : PackageFileEntry where
  path := joinStoragePath storage (strip (captured m "name"))
  name := strip (captured m "name")
  sizeBytes := size
  storage := storage

omit [PyText] [PyNumbers] in
/-- A numbered line is read as a file when its name is one. -/
theorem parseNumberedDirLine_eq (line storage : String) :
    parseNumberedDirLine line storage = match numberedEntry? line with
      | none => .ok none
      | some m => (Value.str (removeChar ',' (captured m "size"))).toInt.map fun n =>
        some (numberedFile storage m n) := by
  unfold parseNumberedDirLine numberedEntry?
  cases hmatch : Patterns.numberedDirLine.matchStart line with
  | none => rfl
  | some m =>
    rw [Option.filter_some]
    have hname : captured m "name" = (m.group? "name").getD "" := rfl
    by_cases hskip : strip (captured m "name") ∈ ["", ".", ".."]
    · rw [if_neg (not_not.mpr hskip ∘ of_decide_eq_true)]
      simp only [List.mem_cons, List.not_mem_nil, or_false, hname] at hskip
      exact if_pos hskip
    · rw [if_pos (by simpa using hskip)]
      simp only [List.mem_cons, List.not_mem_nil, or_false, hname] at hskip
      refine (if_neg hskip).trans ?_
      show (Value.str (removeChar ',' (captured m "size"))).toInt.bind _ =
        (Value.str (removeChar ',' (captured m "size"))).toInt.map _
      generalize (Value.str (removeChar ',' (captured m "size"))).toInt = number
      cases number <;> rfl

omit [PyText] [PyNumbers] in
/-- The size of a numbered line. -/
theorem size_of_numberedEntry {line : String} {m : Cursor} (h : numberedEntry? line = some m) :
    (∃ a, captured m "size" = String.ofList a ∧ Language Patterns.groupedDigits a) ∧
      strip (captured m "name") ≠ "" := by
  obtain ⟨hmatch, hname⟩ := Option.filter_eq_some_iff.mp h
  obtain ⟨c, hc⟩ := mem_ways_of_matchStart hmatch
  obtain ⟨a, ha, hlanguage⟩ := capture_of_mem "size" (r := Patterns.groupedDigits) hc
    (by simp) (by show List.Nodup ["size", "date", "name"]; decide)
  refine ⟨⟨a, by rw [captured, ha, Option.getD_some], hlanguage⟩, fun hempty => ?_⟩
  rw [hempty] at hname
  simp at hname

omit [PyLib] [PyText] [PyNumbers] in
/-- A text with a character that is no space is not empty when it is stripped. -/
theorem strip_ne_empty {s : String} {c : Char} (hc : c ∈ s.toList) (hspace : isSpace c = false) :
    strip s ≠ "" := by
  have hkept {l : List Char} (hl : c ∈ l) : c ∈ l.dropWhile isSpace := by
    rw [← List.takeWhile_append_dropWhile (p := isSpace) (l := l)] at hl
    refine (List.mem_append.mp hl).resolve_left fun htake => ?_
    rw [List.mem_takeWhile_imp htake] at hspace
    cases hspace
  intro hempty
  have hmem : c ∈ (strip s).toList := by
    rw [strip, String.toList_ofList, List.mem_reverse]
    exact hkept (List.mem_reverse.mpr (hkept hc))
  rw [hempty] at hmem
  cases hmem

omit [PyNumbers] in
/-- The fields of a line with a plain size. -/
theorem fields_of_simpleSizeLine {line : String} {m : Cursor}
    (h : Patterns.simpleSizeLine.search line = some m) :
    (∃ a, captured m "size" = String.ofList a ∧ Language Patterns.groupedDigits a) ∧
      strip (captured m "name") ≠ "" := by
  obtain ⟨c, hc⟩ := mem_ways_of_search h
  have hnames : List.Nodup ["name", "size", "unit"] := by decide
  obtain ⟨a, ha, hlanguage⟩ := capture_of_mem "size" (r := Patterns.groupedDigits) hc
    (by simp) hnames
  obtain ⟨b, hb, hname⟩ := capture_of_mem "name" hc List.mem_cons_self hnames
  refine ⟨⟨a, by rw [captured, ha, Option.getD_some], hlanguage⟩, ?_⟩
  obtain ⟨front, suffix, rfl, hfront, -⟩ := language_seq hname
  obtain ⟨hne, hchars⟩ := language_plus_chars hfront
  obtain ⟨first, hfirst⟩ := List.exists_mem_of_ne_nil front hne
  rw [captured, hb, Option.getD_some]
  refine strip_ne_empty (c := first) ?_ (by simpa using hchars first hfirst)
  rw [String.toList_ofList]
  exact List.mem_append_left suffix hfirst

omit [PyNumbers] in
/-- What a line comes to, from what its number does. -/
theorem entry_of_number {number : Except PyError ℤ} {read : Prop} (entry : ℤ → PackageFileEntry)
    {line storage : String}
    (hline : parseDirLine storage line = number.map fun n => some (entry n))
    (hiff : (∃ n, number = .ok n) ↔ read) (hnonneg : ∀ n, number = .ok n → 0 ≤ n)
    (hname : ∀ n, (entry n).name ≠ "") (hsize : ∀ n, (entry n).sizeBytes = n) :
    ((∃ entry, parseDirLine storage line = .ok entry) ↔ read) ∧
      ∀ entry, parseDirLine storage line = .ok (some entry) →
        entry.name ≠ "" ∧ 0 ≤ entry.sizeBytes := by
  rw [hline, ← hiff]
  cases number with
  | error e => simp [Except.map]
  | ok n =>
    refine ⟨by simp [Except.map], fun entry' h => ?_⟩
    obtain rfl : entry n = entry' := by simpa [Except.map] using h
    rw [hsize]
    exact ⟨hname n, hnonneg n rfl⟩

/-- A line is read when its number is readable, and then as a file that is well formed. -/
theorem parseDirLine_iff (storage line : String) :
    ((∃ entry, parseDirLine storage line = .ok entry) ↔ LineReadable line) ∧
      ∀ entry, parseDirLine storage line = .ok (some entry) →
        entry.name ≠ "" ∧ 0 ≤ entry.sizeBytes := by
  obtain ⟨rest, hunfold, hsome, hrest⟩ : ∃ rest : Option PackageFileEntry → _,
      parseDirLine storage line = (parseNumberedDirLine line storage).bind rest ∧
        (∀ entry, rest (some entry) = .ok (some entry)) ∧
        rest none = parseSimpleSizeLine line storage := ⟨_, rfl, fun _ => rfl, rfl⟩
  rw [parseNumberedDirLine_eq] at hunfold
  unfold LineReadable
  cases hentry : numberedEntry? line with
  | some m =>
    obtain ⟨⟨a, ha, hlanguage⟩, hname⟩ := size_of_numberedEntry hentry
    obtain ⟨hiff, hnonneg⟩ := size_iff hlanguage
    rw [← ha] at hiff hnonneg
    rw [hentry] at hunfold
    refine entry_of_number (numberedFile storage m) (hunfold.trans ?_) hiff hnonneg
      (fun n => hname) fun n => rfl
    dsimp only
    generalize (Value.str (removeChar ',' (captured m "size"))).toInt = number
    cases number with
    | error e => rfl
    | ok n => exact hsome (numberedFile storage m n)
  | none =>
    rw [hentry] at hunfold
    have hunfold : parseDirLine storage line = parseSimpleSizeLine line storage :=
      hunfold.trans hrest
    cases hmatch : Patterns.simpleSizeLine.search line with
    | none =>
      have hnone : parseDirLine storage line = .ok none := by
        rw [hunfold]
        unfold parseSimpleSizeLine
        rw [hmatch]
        rfl
      rw [hnone]
      simp
    | some m =>
      obtain ⟨⟨a, ha, hlanguage⟩, hname⟩ := fields_of_simpleSizeLine hmatch
      obtain ⟨hiff, hnonneg⟩ := toBytes_iff (value_of_grouped hlanguage) (captured m "unit")
      rw [← ha] at hiff hnonneg
      have hall : (∀ m', some m = some m' → BytesReadable (captured m' "size") (captured m' "unit")) ↔
          BytesReadable (captured m "size") (captured m "unit") := by simp
      rw [← hall] at hiff
      refine entry_of_number (simpleFile storage m) (hunfold.trans ?_) hiff hnonneg
        (fun n => hname) fun n => rfl
      unfold parseSimpleSizeLine
      rw [hmatch]
      show (toBytes (captured m "size") (captured m "unit")).bind _ = _
      generalize toBytes (captured m "size") (captured m "unit") = number
      cases number <;> rfl

/-! ## All of it -/

theorem parseDirEntries_iff (output storage : String) :
    (∃ entries, parseDirEntries output storage = .ok entries) ↔
      ∀ line ∈ splitlines output, LineReadable line := by
  have hlines : (∃ read, (splitlines output).mapM (parseDirLine (normalizeStorage storage)) =
      .ok read) ↔ ∀ line ∈ splitlines output, LineReadable line := by
    simp only [Except.mapM_returns_iff, (parseDirLine_iff _ _).1]
  rw [← hlines]
  constructor
  · rintro ⟨entries, h⟩
    obtain ⟨read, hread, -⟩ := Except.bind_eq_ok.mp h
    exact ⟨read, hread⟩
  · rintro ⟨read, hread⟩
    exact ⟨read.reduceOption, by rw [parseDirEntries, hread]; rfl⟩

/-- The files of a listing are well formed. -/
theorem wellFormed_of_mem_parseDirEntries {output storage : String}
    {entries : List PackageFileEntry} (h : parseDirEntries output storage = .ok entries)
    {entry : PackageFileEntry} (hentry : entry ∈ entries) :
    entry.name ≠ "" ∧ 0 ≤ entry.sizeBytes ∧
      entry.path = normalizeStorage storage ++ posixName entry.name := by
  have hpath := path_of_mem_parseDirEntries h hentry
  obtain ⟨read, hread, h⟩ := Except.bind_eq_ok.mp h
  cases h
  have hsome := List.reduceOption_mem_iff.mp hentry
  obtain ⟨line, -, hline⟩ := Except.exists_of_mem_mapM hread hsome
  obtain ⟨hname, hsize⟩ := (parseDirLine_iff (normalizeStorage storage) line).2 entry hline
  exact ⟨hname, hsize, hpath⟩

/-- The presence of a package is decided for every listing that is read. -/
theorem dirContainsPackage_returns {output storage : String} {entries : List PackageFileEntry}
    (h : parseDirEntries output storage = .ok entries) (packageName : String) {expectedSize : ℤ}
    (hlimit : (expectedSize : ℚ) < limit) :
    ∃ present, dirContainsPackage output storage packageName expectedSize = .ok present := by
  unfold dirContainsPackage
  rw [h]
  dsimp only [bind, Except.bind]
  split
  · exact ⟨false, rfl⟩
  · split
    · exact ⟨true, rfl⟩
    · next hpositive =>
      obtain ⟨share, hshare⟩ := toInt_share (not_le.mp hpositive) hlimit
        (q := 5764607523034235 / 2 ^ 58) (by positivity) (by norm_num)
      have htolerance : toleranceBytes expectedSize (.finite (5764607523034235 / 2 ^ 58)) =
        .ok share := hshare
      rw [htolerance]
      exact ⟨_, rfl⟩

/-- The parsers return on an output just when it is readable. -/
theorem parsersReturn_iff (output storage : String) :
    ParsersReturn output storage ↔ Readable output := by
  constructor
  · intro h
    exact ⟨(findFreeSpaceBytes_iff output).mp h.free,
      (parseDirEntries_iff output storage).mp h.entries⟩
  · intro h
    have hentries := (parseDirEntries_iff output storage).mpr h.lines
    obtain ⟨entries, hparsed⟩ := hentries
    exact {
      free := (findFreeSpaceBytes_iff output).mpr h.free
      entries := ⟨entries, hparsed⟩
      contains := fun packageName expectedSize hlimit =>
        dirContainsPackage_returns hparsed packageName hlimit
      wellFormed := fun entries' h' entry hentry => wellFormed_of_mem_parseDirEntries h' hentry }

omit [PyLib] [PyText] [PyNumbers] in
/-- A listing whose size is a comma stops the parser of listings, and a capacity that is a comma the
one of the free space. -/
theorem not_parsersReturn_commas :
    let := PyLib.numerals
    let := PyText.ascii
    let := PyNumbers.exact
    ¬ParsersReturn "1 -rw- , Jan a.cc" "flash:" ∧ ¬ParsersReturn ", bytes free" "flash:" := by
  let := PyLib.numerals
  let := PyText.ascii
  let := PyNumbers.exact
  have hentries : (parseDirEntries "1 -rw- , Jan a.cc" "flash:").isOk = false := by
    decide +kernel
  have hfree : (findFreeSpaceBytes ", bytes free").isOk = false := by
    decide +kernel
  constructor
  · intro h
    obtain ⟨entries, hok⟩ := h.entries
    rw [hok] at hentries
    cases hentries
  · intro h
    obtain ⟨free, hok⟩ := h.free
    rw [hok] at hfree
    cases hfree

end DeviceShell.Huawei
