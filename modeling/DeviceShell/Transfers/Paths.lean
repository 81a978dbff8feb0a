import DeviceShell.Lib.Regex
import DeviceShell.Lib.Text

/-!
# Paths of managed transfers

The validators of `infrastructure/transfers/managed_file_transfer.py` for the paths of a device and
of the shared directory, and what `start_upload` and `start_download` of `application/transfers.py`
accept: the paths and the terminal environment that a queued transfer keeps. The files of the shared
directory are a parameter, given the components of a path. A path is accepted as it stands without
the white space around it, or for the shared directory as its components.
-/

namespace DeviceShell.Transfers

open Regex

/-- What the validators raise. -/
inductive TransferError where
  /-- `ManagedTransferError`. -/
  | managed (code message : String)
  /-- `IndexError`. -/
  | indexError (message : String)
deriving DecidableEq, Repr

/-- `TERMINAL_ENVIRONMENTS`. -/
inductive TerminalEnvironment where
  | auto
  | linux
  | vrp
deriving DecidableEq, Repr

/-! ## Paths of POSIX -/

/-- `s.split("/")`. -/
def pathParts (s : String) : List String := splitAtChars (· == '/') [] s.toList

/-- The components of `PurePosixPath(s)`, without its root. -/
def posixComponents (s : String) : List String :=
  (pathParts s).filter fun part => part ≠ "" ∧ part ≠ "."

/-- The root of `PurePosixPath(s)`: two slashes are one of their own. -/
def posixRoot (s : String) : String :=
  if startsWith s "//" ∧ ¬ startsWith s "///" then "//"
  else if startsWith s "/" then "/"
  else ""

/-- `PurePosixPath(s).as_posix()`. -/
def asPosix (s : String) : String :=
  let text := posixRoot s ++ "/".intercalate (posixComponents s)
  if text = "" then "." else text

/-- `part in {"", ".", ".."}`. -/
def isSpecialPart (part : String) : Bool := part == "" || part == "." || part == ".."

/-! ## Validators -/

/-- The characters `[A-Za-z0-9_.-]`. -/
def storageChar : Regex := chars fun c => c.isAlphanum || c == '_' || c == '.' || c == '-'

/-- The characters `[^/\\\x00-\x1f]`. -/
def nameChar : Regex := chars fun c => c != '/' && c != '\\' && decide (32 ≤ c.toNat)

/-- `_DEVICE_STORAGE_RE`. -/
def deviceStorage : Regex :=
  all [plus true storageChar, opt (all [exact "#", plus true storageChar]), exact ":/",
    star true (all [plus true nameChar, exact "/"]), plus true nameChar, atEnd]

/-- `re.fullmatch(r, s) is not None`. -/
def fullMatch (r : Regex) (s : String) : Bool :=
  (ways r ⟨none, s.toList, []⟩).any fun c => c.rest.isEmpty

/-- `re.match(r"^[^/:\s]+:/", s) is not None`. -/
def namesStorage (s : String) : Bool :=
  (matchStart (all [plus true (chars fun c => c != '/' && c != ':' && !isSpace c), exact ":/"])
    s).isSome

/-- The text behind the first `:/`. -/
def storageTail (s : String) : String := slice s (((find s ":/" 0).getD 0) + 2) none

/-- The error of a path of a device. -/
def invalidDestination {α : Type} (message : String) : Except TransferError α :=
  .error (.managed "invalid_destination_path" message)

/-- `validate_destination_path`. -/
def validateDestinationPath (destinationPath : String) : Except TransferError String :=
  let raw := strip destinationPath
  if '\\' ∈ raw.toList then invalidDestination "目标路径必须使用设备路径分隔符 /。"
  else if raw = "" ∨ fullMatch deviceStorage raw = false then
    invalidDestination "目标路径必须是包含文件名的设备绝对存储路径，例如 flash:/image.cc。"
  else if (pathParts (storageTail raw)).any isSpecialPart then
    invalidDestination "目标路径不能包含空目录、. 或 ..。"
  else .ok raw

/-- `validate_linux_file_path`. -/
def validateLinuxFilePath (path : String) : Except TransferError String :=
  let raw := strip path
  if startsWith raw "/" = false ∨ raw = "/" then
    invalidDestination "Linux 文件路径必须是包含文件名的绝对路径，例如 /tmp/image.cc。"
  else if raw.toList.any fun c => decide (c.toNat < 32) || c.toNat == 127 then
    invalidDestination "Linux 文件路径不能包含控制字符。"
  else if ((pathParts raw).drop 1).any isSpecialPart then
    invalidDestination "Linux 文件路径不能包含 . 或 ..。"
  else .ok (asPosix raw)

/-- `_validate_relative_path`: the path as it stands. -/
def validateRelativePath (value label : String) : Except TransferError String :=
  let normalized := replaceChar '\\' '/' (strip value)
  let outside : Except TransferError String :=
    .error (.managed "transfer_source_outside_root" (label ++ " 必须是共享目录内的相对路径。"))
  if normalized = "" ∨ startsWith normalized "./" ∨ occursIn "/./" normalized ∨
      endsWith normalized "/." ∨ posixRoot normalized ≠ "" then outside
  else match posixComponents normalized with
    | [] => .error (.indexError "tuple index out of range")
    | first :: rest =>
      if ':' ∈ first.toList ∨ (first :: rest).any isSpecialPart then outside
      else .ok normalized

section Environment

variable [PyLib]

/-- `normalize_terminal_environment`. -/
def normalizeTerminalEnvironment (value : String) : Except TransferError TerminalEnvironment :=
  let normalized := PyLib.casefold (strip value)
  if normalized = "" ∨ normalized = "auto" then .ok .auto
  else if normalized = "linux" then .ok .linux
  else if normalized = "vrp" then .ok .vrp
  else .error (.managed "invalid_terminal_environment" ("不支持的终端环境: " ++ value))

omit [PyLib] in
/-- `validate_transfer_device_path`, for an environment that is normalized. -/
def validateTransferDevicePath (path : String) : TerminalEnvironment → Except TransferError String
  | .vrp => validateDestinationPath path
  | .linux => validateLinuxFilePath path
  | .auto =>
    if namesStorage (strip path) then validateDestinationPath path
    else match validateDestinationPath path with
      | .ok normalized => .ok normalized
      | .error _ => validateLinuxFilePath path

/-- `infer_terminal_environment`. -/
def inferTerminalEnvironment (path sessionKind : String) : TerminalEnvironment :=
  let raw := strip path
  if fullMatch deviceStorage raw ∨ namesStorage raw then .vrp
  else if startsWith raw "/" then .linux
  else if PyLib.casefold (strip sessionKind) = "ssh" then .linux
  else .vrp

/-- The way in which the device is told what to transfer. -/
inductive CommandMode where
  | vrp
  | ftpget
deriving DecidableEq, Repr

/-- `normalize_command_mode`. -/
def normalizeCommandMode (commandMode : String) : Except TransferError CommandMode :=
  let normalized := PyLib.casefold (strip (if commandMode = "" then "vrp" else commandMode))
  if normalized = "vrp" then .ok .vrp
  else if normalized = "ftpget" then .ok .ftpget
  else .error (.managed "invalid_request" ("不支持的设备 FTP 命令方式: " ++ commandMode))

/-! ## Requests -/

/-- What a transfer is asked for with. -/
structure TransferRequest where
  sourcePath : String
  destinationPath : String
  overwrite : Bool := false
  terminalEnvironment : String := "auto"
  commandMode : String := "vrp"

/-- The data that a queued transfer keeps. -/
structure TransferData where
  sourcePath : String
  sourceSize : ℕ
  destinationPath : String
  overwrite : Bool
  requestedEnvironment : TerminalEnvironment
  environment : TerminalEnvironment
  commandMode : CommandMode
deriving DecidableEq, Repr

/-- The size of each file of the shared directory, given the components of its path, or why there is
none. -/
abbrev SharedFiles := List String → Except TransferError ℕ

omit [PyLib] in
/-- `resolve_shared_file`: the path of the file in the shared directory, and its size. -/
def resolveSharedFile (files : SharedFiles) (sourcePath : String) :
    Except TransferError (String × ℕ) := do
  let relative ← validateRelativePath sourcePath "source_path"
  let size ← files (posixComponents relative)
  return (asPosix relative, size)

/-- A path of the device, and the environment in which it is one. -/
def devicePath (path sessionKind : String) (requested : TerminalEnvironment) :
    Except TransferError (String × TerminalEnvironment) := do
  let path ← validateTransferDevicePath path requested
  let environment :=
    if requested = .auto then inferTerminalEnvironment path sessionKind else requested
  let path ← validateTransferDevicePath path environment
  return (path, environment)

/-- The path and the environment that an upload goes to. -/
def uploadDestination (relativePath destinationPath sessionKind : String)
    (commandMode : CommandMode) (requested : TerminalEnvironment) :
    Except TransferError (String × TerminalEnvironment) :=
  match commandMode with
  | .ftpget => .ok (relativePath, .linux)
  | .vrp => devicePath destinationPath sessionKind requested

/-- `start_upload`, in a session of a kind. -/
def startUpload (files : SharedFiles) (sessionKind : String) (request : TransferRequest) :
    Except TransferError TransferData := do
  let info ← resolveSharedFile files request.sourcePath
  let commandMode ← normalizeCommandMode request.commandMode
  let requested ← normalizeTerminalEnvironment request.terminalEnvironment
  let destination ← uploadDestination info.1 request.destinationPath sessionKind commandMode
    requested
  return {
    sourcePath := info.1
    sourceSize := info.2
    destinationPath := destination.1
    overwrite := request.overwrite
    requestedEnvironment := requested
    environment := destination.2
    commandMode := commandMode }

/-- `start_download`, in a session of a kind. -/
def startDownload (sessionKind : String) (request : TransferRequest) :
    Except TransferError TransferData := do
  let commandMode ← normalizeCommandMode request.commandMode
  if commandMode = .ftpget then
    throw (.managed "ftpget_direction_unsupported"
      "ftpget 单命令当前只支持 PC 到设备；设备到 PC 请使用 VRP 交互模式。")
  let requested ← normalizeTerminalEnvironment request.terminalEnvironment
  let source ← devicePath request.sourcePath sessionKind requested
  let relative ← validateRelativePath request.destinationPath "destination_path"
  return {
    sourcePath := source.1
    sourceSize := 0
    destinationPath := asPosix relative
    overwrite := request.overwrite
    requestedEnvironment := requested
    environment := source.2
    commandMode := commandMode }

end Environment

end DeviceShell.Transfers
