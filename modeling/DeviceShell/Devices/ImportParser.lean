import DeviceShell.Lib.Operators
import DeviceShell.Lib.Text

/-!
# Device imports

`_parse_rows` of `device_sources/import_parser.py`: a table of cells, as `openpyxl` or `csv` reads it
from a file, is turned into devices. The first row that is not blank is the header; every later row
that is not blank is a device, or an issue when the conversion raises a `ValueError`.
-/

namespace DeviceShell.DeviceImport

/-- `MAX_IMPORT_ROWS`. -/
def maxImportRows : ℕ := 20000

/-- `MAX_IMPORT_COLUMNS`. -/
def maxImportColumns : ℕ := 100

/-- `PREVIEW_ROW_LIMIT`. -/
def previewRowLimit : ℕ := 15

/-- `DeviceImportIssue`. -/
structure DeviceImportIssue where
  row : ℕ
  message : String
deriving DecidableEq, Repr

/-- `Device`, as an import fills it in. The other fields are constants: there are no passwords, the
device cannot be powered off, and `extra` says that it was imported. -/
structure Device where
  id : String
  name : String
  domain : String
  deviceType : String
  cpu : String
  status : String
  owner : Option String
  sshIp : String
  telnetIp : String
  username : String
  vendor : String
  model : String
  site : String
  rack : String
  version : String
  notes : String
  boardId : String
  sshPort : ℤ
  telnetPort : ℤ
  sshUsername : String
  serialIp : String
  serialPort : ℤ
  serialUsername : String
deriving DecidableEq, Repr

/-- A row of the preview. -/
structure PreviewRow where
  id : String
  name : String
  domain : String
  deviceType : String
  host : String
  status : String
deriving DecidableEq, Repr

/-- `ParsedDeviceImport`, without the path and the name of the sheet. -/
structure ParsedDeviceImport where
  headers : List String
  devices : List Device
  totalRows : ℕ
  skippedRows : ℕ
  errors : List DeviceImportIssue
  warnings : List String
  previewRows : List PreviewRow
deriving DecidableEq, Repr

/-- What the import of a file raises. -/
inductive ImportError where
  /-- `DeviceImportError`. -/
  | deviceImport (message : String)
  | python (e : PyError)
deriving DecidableEq, Repr

/-- `_ALIASES`. -/
def aliases : List (String × List String) :=
  [("id", ["id", "deviceid", "设备id", "设备编号", "设备编码", "编号"]),
    ("name", ["name", "devicename", "displayname", "设备名称", "设备名", "名称"]),
    ("domain", ["domain", "domainname", "领域", "域", "业务域", "分组"]),
    ("device_type", ["type", "kind", "devicetype", "设备类型", "类型"]),
    ("cpu", ["cpu", "cpuarch", "架构", "cpu架构"]),
    ("status", ["status", "statuslabel", "状态"]),
    ("owner", ["owner", "user", "占用人", "负责人"]),
    ("host", ["ip", "host", "deviceip", "managementip", "设备ip", "管理ip", "主机"]),
    ("ssh_ip", ["sship", "sshhost", "ssh地址", "sship地址"]),
    ("ssh_port", ["sshport", "ssh端口"]),
    ("ssh_username", ["sshusername", "sshuser", "ssh账号", "ssh用户"]),
    ("telnet_ip", ["telnetip", "telnethost", "telnet地址"]),
    ("telnet_port", ["telnetport", "telnet端口"]),
    ("username", ["username", "user", "账号", "用户名", "登录账号"]),
    ("serial_ip", ["serialip", "serialhost", "串口地址", "串口服务器"]),
    ("serial_port", ["serialport", "串口端口"]),
    ("serial_username", ["serialusername", "serialuser", "串口账号", "串口用户"]),
    ("vendor", ["vendor", "厂商", "厂家"]),
    ("model", ["model", "型号", "设备型号", "板类型"]),
    ("site", ["site", "站点", "位置"]),
    ("rack", ["rack", "机架", "机柜", "slot", "槽位"]),
    ("version", ["version", "版本", "软件版本"]),
    ("notes", ["notes", "remark", "remarks", "备注", "说明"]),
    ("board_id", ["boardid", "board", "单板id", "板卡id", "板编号"])]

/-- `_PASSWORD_HEADERS`. -/
def passwordHeaders : List String :=
  ["password", "passwd", "pwd", "密码", "登录密码", "sshpassword", "telnetpassword",
    "serialpassword", "ssh密码", "telnet密码", "串口密码"]

section

variable [PyLib]

/-! ## Cells -/

/-- `_cell_text`. -/
def cellText : Value → String
  | .none => ""
  | .bool b => if b then "true" else "false"
  | .float (.finite q) =>
    if q.den = 1 then (Value.int q.num).pyStr else strip (Value.float (.finite q)).pyStr
  | v => strip v.pyStr

/-- `any(_cell_text(value) for value in row)`. -/
def isData (row : List Value) : Bool := row.any fun value => cellText value ≠ ""

/-- `_normalized_header`. -/
def normalizedHeader (value : String) : String :=
  String.ofList ((PyLib.casefold (strip value)).toList.filter fun c =>
    !(isSpace c || "_-./\\（）()".toList.contains c))

/-- The field that a header is mapped to. -/
def fieldOf (mapping : Dict String ℕ) (header : String) : Option String :=
  (aliases.find? fun e =>
    !mapping.contains e.1 && e.2.contains (normalizedHeader header)).map (·.1)

/-- `_column_mapping`. -/
def columnMapping (headers : List String) : Dict String ℕ :=
  headers.zipIdx.foldl (fun mapping header => match fieldOf mapping header.1 with
    | some field => mapping.set field header.2
    | none => mapping) ∅

/-- The values of a row under the fields that have a column. -/
def rowValues (mapping : Dict String ℕ) (row : List Value) : Dict String String :=
  mapping.mapValues fun index => match row[index]? with
    | some value => cellText value
    | none => ""

/-- `values.get(field, "")`. -/
def text (values : Dict String String) (field : String) : String := (values.get? field).getD ""

/-- `values.get(field, "").strip()`. -/
def stripped (values : Dict String String) (field : String) : String := strip (text values field)

/-- `int(float(value))`. -/
def truncated (value : String) : Except PyError ℤ := do
  (Value.float (← (Value.str value).toFloat)).toInt

/-- `_port`. -/
def port (value : String) (default : ℤ) (label : String) : Except PyError ℤ :=
  if value = "" then .ok default
  else match truncated value with
    | .ok parsed =>
      if parsed < 1 ∨ 65535 < parsed then
        .error (.valueError (label ++ " 端口必须在 1-65535 之间。"))
      else .ok parsed
    | .error (.valueError _) => .error (.valueError (label ++ " 端口不是有效数字：" ++ value))
    | .error e => .error e

/-- `first or second` of two texts. -/
def orElse (first second : String) : String := if first = "" then second else first

/-- `_device_from_values`. -/
def deviceFromValues (values : Dict String String) : Except PyError Device :=
  let id := orElse (stripped values "id") (stripped values "name")
  let name := orElse (stripped values "name") id
  let host := stripped values "host"
  let owner := stripped values "owner"
  if id = "" then .error (.valueError "设备编号和设备名称不能同时为空。")
  else if 160 < id.length then .error (.valueError "设备编号不能超过 160 个字符。")
  else do
    let sshPort ← port (text values "ssh_port") 22 "SSH"
    let telnetPort ← port (text values "telnet_port") 23 "Telnet"
    let serialPort ← port (text values "serial_port") 23 "串口"
    return {
      id := id
      name := name
      domain := orElse (stripped values "domain") "导入设备"
      deviceType := stripped values "device_type"
      cpu := stripped values "cpu"
      status := orElse (stripped values "status") "空闲"
      owner := if owner = "" then none else some owner
      sshIp := orElse (stripped values "ssh_ip") host
      telnetIp := orElse (stripped values "telnet_ip") host
      username := stripped values "username"
      vendor := stripped values "vendor"
      model := stripped values "model"
      site := stripped values "site"
      rack := stripped values "rack"
      version := stripped values "version"
      notes := stripped values "notes"
      boardId := stripped values "board_id"
      sshPort := sshPort
      telnetPort := telnetPort
      sshUsername := orElse (stripped values "ssh_username") (stripped values "username")
      serialIp := stripped values "serial_ip"
      serialPort := serialPort
      serialUsername := stripped values "serial_username" }

/-! ## Rows -/

/-- `key`. -/
def Device.key (device : Device) : String × String :=
  (PyLib.casefold device.id, PyLib.casefold device.boardId)

omit [PyLib] in
/-- What the preview shows of a device. -/
def Device.preview (device : Device) : PreviewRow where
  id := device.id
  name := device.name
  domain := device.domain
  deviceType := device.deviceType
  host := orElse (orElse device.sshIp device.telnetIp) device.serialIp
  status := device.status

/-- What the loop over the rows carries. -/
structure Progress where
  devices : List Device := []
  errors : List DeviceImportIssue := []
  previewRows : List PreviewRow := []
  seen : List (String × String) := []
  totalRows : ℕ := 0
  skippedRows : ℕ := 0

/-- The body of the `try` of a row: the device, unless its key was seen before. -/
def rowDevice (mapping : Dict String ℕ) (seen : List (String × String)) (row : List Value) :
    Except PyError Device := do
  let device ← deviceFromValues (rowValues mapping row)
  if seen.contains device.key then
    throw (.valueError ("设备 ID 与单板 ID 重复：" ++ device.id ++ " / " ++ orElse device.boardId "-"))
  else return device

/-- The loop's state with a row more: a device, or an issue. -/
def Progress.keep (q : Progress) (device : Device) : Progress :=
  { q with
    seen := device.key :: q.seen
    devices := q.devices ++ [device]
    previewRows := if q.previewRows.length < previewRowLimit then
        q.previewRows ++ [device.preview]
      else q.previewRows }

/-- The loop's state with an issue more. -/
def Progress.skip (q : Progress) (row : ℕ) (message : String) : Progress :=
  { q with
    skippedRows := q.skippedRows + 1
    errors := q.errors ++ [⟨row, message⟩] }

/-- The loop over the rows, each with its number. -/
def parseLoop (mapping : Dict String ℕ) :
    List (ℕ × List Value) → Progress → Except ImportError Progress
  | [], q => .ok q
  | (number, row) :: rest, q =>
    if !isData row then parseLoop mapping rest q
    else if maxImportRows < q.totalRows + 1 then
      .error (.deviceImport "单次导入不能超过 20,000 行。")
    else
      let q := { q with totalRows := q.totalRows + 1 }
      match rowDevice mapping q.seen row with
      | .ok device => parseLoop mapping rest (q.keep device)
      | .error (.valueError message) => parseLoop mapping rest (q.skip number message)
      | .error e => .error (.python e)

/-- The rows with their numbers, and the header among them taken off. -/
def splitHeader : List (ℕ × List Value) → Option (List Value × List (ℕ × List Value))
  | [] => none
  | (_, row) :: rest => if isData row then some (row, rest) else splitHeader rest

/-- The texts of the header. -/
def headerTexts (row : List Value) : List String :=
  row.zipIdx.map fun e => orElse (cellText e.1) ("未命名列" ++ toString (e.2 + 1))

/-- What is returned after the loop. -/
def Progress.result (q : Progress) (headers : List String) : ParsedDeviceImport where
  headers := headers
  devices := q.devices
  totalRows := q.totalRows
  skippedRows := q.skippedRows
  errors := q.errors
  warnings :=
    if headers.any fun header => passwordHeaders.contains (normalizedHeader header) then
      ["检测到密码列，已按安全策略忽略，不会写入本地数据库。"]
    else []
  previewRows := q.previewRows

/-- `_parse_rows`. -/
def parseRows (sourceRows : List (List Value)) : Except ImportError ParsedDeviceImport :=
  match splitHeader (sourceRows.zipIdx.map fun e => (e.2 + 1, e.1)) with
  | none => .error (.deviceImport "文件中没有可识别的表头。")
  | some (headerRow, rows) =>
    if maxImportColumns < headerRow.length then
      .error (.deviceImport "导入表不能超过 100 列。")
    else
      let headers := headerTexts headerRow
      let mapping := columnMapping headers
      if !mapping.contains "id" && !mapping.contains "name" then
        .error (.deviceImport "表格至少需要“设备编号/ID”或“设备名称”列。")
      else do
        let q ← parseLoop mapping rows {}
        if q.devices = [] then
          let detail := match q.errors with
            | issue :: _ => issue.message
            | [] => "没有数据行"
          throw (.deviceImport ("没有可导入的有效设备：" ++ detail))
        else return q.result headers

end

end DeviceShell.DeviceImport
