import DeviceShell.Huawei.Package
import DeviceShell.Lib.Fallible
import DeviceShell.Lib.Regex

/-!
# Huawei VRP output parsers

`huawei_vrp/parsers.py`: what the device reports about its startup software, the free space of a
storage and the files of a listing. Each of the module's patterns is written out as a `Regex`; a
number that Python cannot read raises, as `int` and `float` do.
-/

namespace DeviceShell.Huawei

variable [PyLib] [PyText]

/-- The fields of `display startup` that are read. -/
inductive StartupField where
  | current
  | next
deriving DecidableEq, Repr

/-- The field that a line of the output reports. -/
def startupField? (line : String) : Option StartupField :=
  let lowered := PyLib.casefold (strip line)
  if occursIn "current startup system software" lowered then some .current
  else if occursIn "next startup system software" lowered then some .next
  else none

/-- `_value_after_colon`. -/
def valueAfterColon (line : String) : String :=
  if occursIn ":" line then strip (afterFirst ':' line) else (words line).getLast?.getD ""

/-- The body of the loop of `parse_display_startup`. -/
def readStartupLine (info : StartupInfo) (line : String) : StartupInfo :=
  match startupField? line with
  | some .current => { info with currentSystem := valueAfterColon (strip line) }
  | some .next => { info with nextSystem := valueAfterColon (strip line) }
  | none => info

/-- `parse_display_startup`. -/
def parseDisplayStartup (output : String) : StartupInfo :=
  (splitlines output).foldl readStartupLine {}

/-- `startup_uses_package`. -/
def startupUsesPackage (output packageName : String) : Bool :=
  let target := packageBasename packageName
  target ≠ "" ∧ packageBasename (parseDisplayStartup output).nextSystem = target

namespace Patterns

open Regex

/-- `\d`. -/
def digit : Regex := chars fun c => (PyLib.digit c).isSome

/-- `\s*`. -/
def spaces : Regex := star true (chars isSpace)

/-- `\s+`. -/
def someSpace : Regex := plus true (chars isSpace)

/-- `\b`. -/
def wordBoundary : Regex := boundary fun c => PyText.isAlnum c || c == '_'

/-- A character of a class of letters under `re.IGNORECASE`. -/
def letterOf (letters : String) : Regex := chars fun c => foldLetter c ∈ letters.toList

/-- `[\d,]+`. -/
def groupedDigits : Regex := plus true (chars fun c => (PyLib.digit c).isSome || c == ',')

/-- `(?P<value>[\d,]+(?:\.\d+)?)`. -/
def value : Regex :=
  group "value" (seq groupedDigits (opt (seq (exact ".") (plus true digit))))

/-- `(?P<unit>字节|bytes?|[kmgt]i?b)`. -/
def unit : Regex :=
  group "unit" (any [exact "字节", seq (ignoringCase "byte") (opt (ignoringCase "s")),
    all [letterOf "kmgt", opt (ignoringCase "i"), ignoringCase "b"]])

/-- `(?:free|available)`. -/
def free : Regex := any [ignoringCase "free", ignoringCase "available"]

/-- `(?:\s+space)?`. -/
def space : Regex := opt (seq someSpace (ignoringCase "space"))

/-- The patterns of `find_free_space_bytes`, in order. -/
def freeSpace : List Regex :=
  [ all [exact "(", value, spaces, unit, someSpace, free, wordBoundary],
    all [value, spaces, unit, someSpace, free, wordBoundary],
    all [free, space, spaces, any [exact ":", exact "="], spaces, value, spaces, unit],
    all [free, space, spaces, opt (any [exact ":", exact "="]), spaces, opt (exact "("), spaces,
      value, spaces, unit, wordBoundary],
    all [value, spaces, unit, spaces, free, space, wordBoundary],
    all [any [exact "剩余", exact "可用"], spaces, opt (exact "空间"), spaces,
      opt (any [exact ":", exact "：", exact "="]), spaces, value, spaces, unit] ]

/-- The pattern of `_parse_numbered_dir_line`. -/
def numberedDirLine : Regex :=
  all [spaces, plus true digit, someSpace, chars fun c => c == '-' || c == 'd',
    plus true (chars fun c => c ∈ ['r', 'w', 'x', '-']), someSpace,
    group "size" groupedDigits, someSpace,
    group "date" (plus false (chars fun c => c != '\n')), someSpace,
    group "name" (plus true (chars fun c => !isSpace c)), spaces, atEnd]

/-- The pattern of `_parse_simple_size_line`. -/
def simpleSizeLine : Regex :=
  all [group "name" (seq (plus true (chars fun c => !isSpace c)) (ignoringCase ".cc")), someSpace,
    group "size" groupedDigits, spaces,
    group "unit" (seq (opt (letterOf "kmgt")) (ignoringCase "b")), wordBoundary]

end Patterns

/-- The factors of `_to_bytes`. -/
def multipliers : List (String × ℤ) :=
  [("b", 1), ("byte", 1), ("bytes", 1), ("字节", 1), ("kb", 1024), ("kib", 1024),
    ("mb", 1024 * 1024), ("mib", 1024 * 1024), ("gb", 1024 * 1024 * 1024),
    ("gib", 1024 * 1024 * 1024), ("tb", 1024 * 1024 * 1024 * 1024),
    ("tib", 1024 * 1024 * 1024 * 1024)]

/-- `_to_bytes`. -/
def toBytes (value unit : String) : Except PyError ℤ := do
  let number ← (Value.str (removeChar ',' value)).toFloat
  let factor := (multipliers.lookup (PyText.lower unit)).getD 1
  (← Value.arith .mul (.float number) (.int factor)).toInt

/-- `find_free_space_bytes`: the first pattern that matches decides, by its last match. -/
def findFreeSpaceBytes (output : String) : Except PyError (Option ℤ) :=
  match Patterns.freeSpace.findSome? fun pattern => (pattern.findAll output).getLast? with
  | some m => do
    return some (← toBytes ((m.group? "value").getD "") ((m.group? "unit").getD ""))
  | none => return none

/-- `parse_free_space_bytes`. -/
def parseFreeSpaceBytes (output : String) : Except PyError ℤ := do
  return (← findFreeSpaceBytes output).getD 0

/-- `_parse_numbered_dir_line`. -/
def parseNumberedDirLine (line storage : String) : Except PyError (Option PackageFileEntry) :=
  match Patterns.numberedDirLine.matchStart line with
  | none => return none
  | some m => do
    let name := strip ((m.group? "name").getD "")
    if name = "" ∨ name = "." ∨ name = ".." then return none
    return some
      { path := joinStoragePath storage name
        name := name
        sizeBytes := ← (Value.str (removeChar ',' ((m.group? "size").getD ""))).toInt
        storage := storage
        modifiedText := strip ((m.group? "date").getD "") }

/-- `_parse_simple_size_line`. -/
def parseSimpleSizeLine (line storage : String) : Except PyError (Option PackageFileEntry) :=
  match Patterns.simpleSizeLine.search line with
  | none => return none
  | some m => do
    let name := strip ((m.group? "name").getD "")
    return some
      { path := joinStoragePath storage name
        name := name
        sizeBytes := ← toBytes ((m.group? "size").getD "") ((m.group? "unit").getD "")
        storage := storage }

/-- The body of the loop of `parse_dir_entries`. -/
def parseDirLine (storage line : String) : Except PyError (Option PackageFileEntry) := do
  match ← parseNumberedDirLine line storage with
  | some entry => return some entry
  | none => parseSimpleSizeLine line storage

/-- `parse_dir_entries`. -/
def parseDirEntries (output storage : String) : Except PyError (List PackageFileEntry) := do
  return (← (splitlines output).mapM (parseDirLine (normalizeStorage storage))).reduceOption

/-! ## Presence and topology -/

/-- `int(expected_size * tolerance_ratio)`, for the ratio's value as a float. -/
def toleranceBytes (expectedSize : ℤ) (toleranceRatio : PyFloat) : Except PyError ℤ := do
  (← Value.arith .mul (.int expectedSize) (.float toleranceRatio)).toInt

/-- `dir_contains_package`: the first entry with the package's name decides. The default ratio is the
float `0.02`. -/
def dirContainsPackage (output storage packageName : String) (expectedSize : ℤ := 0)
    (toleranceRatio : PyFloat := .finite (5764607523034235 / 2 ^ 58)) : Except PyError Bool := do
  let target := packageBasename packageName
  match (← parseDirEntries output storage).find? fun entry => packageBasename entry.name = target with
  | none => return false
  | some entry =>
    if expectedSize ≤ 0 then return true
    let allowedDelta := max 4096 (← toleranceBytes expectedSize toleranceRatio)
    return decide (|entry.sizeBytes - expectedSize| ≤ allowedDelta)

omit [PyText] in
/-- `_storage_section`. -/
def storageSection (output normalizedStorage : String) : Option String :=
  let marker := "directory of " ++ rstripChar '/' normalizedStorage
  let lowered := PyLib.casefold output
  match find lowered marker 0 with
  | none => none
  | some start =>
    some (slice output start (find lowered "directory of " (start + marker.length)))

/-- The results of `classify_standby_storage`. -/
inductive StandbyStorage where
  | available
  | absent
  | indeterminate
  /-- `STANDBY_STORAGE_NOT_PROBED`, which only the probe uses. -/
  | notProbed
deriving DecidableEq, Repr

/-- The text of a result. -/
def StandbyStorage.value : StandbyStorage → String
  | .available => "available"
  | .absent => "absent"
  | .indeterminate => "indeterminate"
  | .notProbed => "not_probed"

/-- `STANDBY_STORAGE_ABSENT_PATTERNS`. -/
def standbyStorageAbsentPatterns : List String :=
  ["device is not present", "device not present", "device does not exist", "no such device",
    "no device available", "storage device does not exist", "path does not exist",
    "directory does not exist", "filesystem does not exist", "file system does not exist",
    "wrong device", "设备不存在", "存储设备不存在", "文件系统不存在", "无此设备"]

omit [PyText] in
/-- `classify_standby_storage`. -/
def classifyStandbyStorage (output storage : String) : StandbyStorage :=
  let normalizedStorage := PyLib.casefold (normalizeStorage storage)
  let section_ := storageSection output normalizedStorage
  if section_.any fun s => occursIn ("directory of " ++ rstripChar '/' normalizedStorage)
      (PyLib.casefold s) then .available
  else
    let scopedOutput := PyLib.casefold (section_.getD output)
    if standbyStorageAbsentPatterns.any fun pattern =>
        occursIn (PyLib.casefold pattern) scopedOutput then .absent
    else .indeterminate

/-- The results of `classify_controller_topology`. -/
inductive ControllerTopology where
  | dual
  | single
  | indeterminate
deriving DecidableEq, Repr

/-- The text of a result. -/
def ControllerTopology.value : ControllerTopology → String
  | .dual => "dual_controller"
  | .single => "single_controller"
  | .indeterminate => "indeterminate"

omit [PyLib] in
/-- `\b(?:first|second)\b`. -/
def Patterns.eitherWord (first second : String) : Regex :=
  .all [wordBoundary, .any [.exact first, .exact second], wordBoundary]

/-- `classify_controller_topology`. -/
def classifyControllerTopology (output : String) : ControllerTopology :=
  let lowered := PyLib.casefold output
  let hasStandby := ((Patterns.eitherWord "standby" "slave").search lowered).isSome
  let hasMaster := ((Patterns.eitherWord "master" "active").search lowered).isSome
  let hasDeviceTable := ["slot", "role", "board", "device state"].any fun marker =>
    occursIn marker lowered
  if hasStandby && hasMaster then .dual
  else if hasMaster && hasDeviceTable then .single
  else .indeterminate

omit [PyText] in
/-- An entry of a numbered line has its path on the storage. -/
theorem path_of_parseNumberedDirLine {line storage : String} {entry : PackageFileEntry}
    (h : parseNumberedDirLine line storage = .ok (some entry)) :
    entry.path = joinStoragePath storage entry.name := by
  unfold parseNumberedDirLine at h
  split at h
  · cases h
  · dsimp only at h
    split at h
    · cases h
    · rw [Except.bind_eq_ok] at h
      obtain ⟨size, -, h⟩ := h
      have hentry := Option.some.inj (Except.ok.inj h)
      rw [← hentry]

/-- An entry of a line with a plain size has its path on the storage. -/
theorem path_of_parseSimpleSizeLine {line storage : String} {entry : PackageFileEntry}
    (h : parseSimpleSizeLine line storage = .ok (some entry)) :
    entry.path = joinStoragePath storage entry.name := by
  unfold parseSimpleSizeLine at h
  split at h
  · cases h
  · dsimp only at h
    rw [Except.bind_eq_ok] at h
    obtain ⟨size, -, h⟩ := h
    have hentry := Option.some.inj (Except.ok.inj h)
    rw [← hentry]

/-- An entry that is read for a storage has its path there. -/
theorem path_of_mem_parseDirEntries {output storage : String} {entries : List PackageFileEntry}
    {entry : PackageFileEntry} (h : parseDirEntries output storage = .ok entries)
    (hentry : entry ∈ entries) :
    entry.path = normalizeStorage storage ++ posixName entry.name := by
  obtain ⟨read, hread, h⟩ := Except.bind_eq_ok.mp h
  cases h
  have hsome := List.reduceOption_mem_iff.mp hentry
  obtain ⟨line, -, hline⟩ := Except.exists_of_mem_mapM hread hsome
  have hjoin : entry.path = joinStoragePath (normalizeStorage storage) entry.name := by
    obtain ⟨numbered, hnumbered, hline⟩ := Except.bind_eq_ok.mp hline
    cases numbered with
    | some first =>
      cases hline
      exact path_of_parseNumberedDirLine hnumbered
    | none => exact path_of_parseSimpleSizeLine hline
  rw [hjoin, joinStoragePath, normalizeStorage_normalizeStorage]

end DeviceShell.Huawei
