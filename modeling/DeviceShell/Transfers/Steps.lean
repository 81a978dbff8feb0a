import DeviceShell.Lib.CommandLine
import DeviceShell.Transfers.Paths

/-!
# Command lines of managed transfers

The plans that `infrastructure/transfers/managed_file_transfer.py` builds for the terminal of a
device: `build_managed_transfer_steps`, `build_managed_transfer_download_steps` and
`build_ftpget_command`. The profile's templates are functions of what is put into them. A line of the
file client is split by the quoting that `quote_transfer_argument` writes, and the line of the shell
by that of `shlex.quote`.
-/

namespace DeviceShell.Transfers

/-! ## Arguments -/

/-- `s.replace(c, text)` for a character, on the characters of the text. -/
def replaceWith (c : Char) (text : List Char) (s : List Char) : List Char :=
  s.flatMap fun d => if d = c then text else [d]

/-- `quote_transfer_argument`. -/
def quoteTransferArgument (value : String) : String :=
  if value.toList.any fun c => isSpace c || c == '"' || c == '\'' then
    String.ofList ('"' ::
      (replaceWith '"' ['\\', '"'] (replaceWith '\\' ['\\', '\\'] value.toList) ++ ['"']))
  else value

/-- The characters that `shlex.quote` leaves unquoted. -/
def isShellSafe (c : Char) : Bool := c.isAlphanum || "_@%+=:,.-/".toList.contains c

/-- `shlex.quote`. -/
def shlexQuote (s : String) : String :=
  if s = "" then "''"
  else if s.toList.all isShellSafe then s
  else String.ofList ('\'' :: (replaceWith '\'' ['\'', '"', '\'', '"', '\''] s.toList ++ ['\'']))

/-- The quoting of the file client. -/
def fileClient : Quoting where
  separates := isSpace
  plain _ := true
  isQuote c := c == '"'
  escapes c := c == '"'

/-- The quoting of a shell, where only what is safe stands for itself. -/
def shell : Quoting where
  separates c := c == ' '
  plain := isShellSafe
  isQuote c := c == '\'' || c == '"'
  escapes c := c == '"'

/-! ## Steps -/

/-- `protocol`, normalized. -/
inductive TransferProtocol where
  | ftp
  | sftp
deriving DecidableEq, Repr

/-- The protocol as it is written. -/
def TransferProtocol.text : TransferProtocol → String
  | .ftp => "ftp"
  | .sftp => "sftp"

/-- The check of the protocol with which both builders begin. -/
def normalizeProtocol [PyLib] (protocol : String) : Except TransferError TransferProtocol :=
  let normalized := PyLib.casefold (strip protocol)
  if normalized = "ftp" then .ok .ftp
  else if normalized = "sftp" then .ok .sftp
  else .error (.managed "invalid_request" ("不支持的文件传输协议: " ++ protocol))

/-- An answer to a prompt: a text, or the value behind a reference. -/
structure PromptResponse where
  pattern : String
  text : String := ""
  secretRef : String := ""
  maxMatches : ℕ

/-- A step that waits for output. -/
structure Expectation where
  success : List String
  failures : List String
  responses : List PromptResponse := []
  timeoutSeconds : ℕ
  label : String
  timeoutCode : String
  maxOutputChars : Option ℕ := none

/-- A step of a plan. A step that sends what is behind a reference puts it between two texts. -/
inductive TransferStep where
  | send (text label : String)
  | sendSecret (secretRef secretPrefix secretSuffix label : String)
  | expect (expectation : Expectation)

/-- What a step writes to the terminal of its own. -/
def TransferStep.sent : TransferStep → List String
  | .send text _ => [text]
  | .sendSecret _ before after _ => [before, after]
  | .expect _ => []

/-- `TransferInteractionProfile`, with its defaults. -/
structure TransferInteractionProfile where
  connectTemplate (protocol host port : String) : String := protocol ++ " " ++ host ++ " " ++ port
  binaryCommand : String := "binary"
  downloadTemplate (source destination : String) : String := "get " ++ source ++ " " ++ destination
  uploadTemplate (source destination : String) : String := "put " ++ source ++ " " ++ destination
  quitCommand : String := "quit"
  hostKeyPrompt : String := "host_key_prompt"
  usernamePrompt : String := "username_prompt"
  passwordPrompt : String := "password_prompt"
  loginLabel : String := "本地自动登录文件服务"
  connectTimeoutCode : String := "ftp_login_timeout"
  binaryTimeoutCode : String := "ftp_binary_prompt_timeout"
  transferTimeoutCode : String := "ftp_transfer_timeout"
  exitTimeoutCode : String := "ftp_exit_timeout"

/-- The service that a device transfers with. -/
structure TransferEndpoint where
  protocol : String
  host : String
  port : ℕ
  usernameSecretRef : String := "file_transfer.username"
  passwordSecretRef : String := "file_transfer.password"
  connectSecretRef : String := ""

/-- The prompt of the file client. -/
def TransferProtocol.prompt : TransferProtocol → String
  | .ftp => "ftp_prompt"
  | .sftp => "sftp_prompt"

/-- What is taken for a login that failed. -/
def loginFailures : List String :=
  ["Login incorrect", "Authentication failed", "Permission denied", "Host key verification failed",
    "530 ", "421 "]

/-- What is taken for a transfer that failed. -/
def transferFailures : List String :=
  ["Error:", "failed", "No such file", "not found", "timed out", "Connection closed", "500 ",
    "502 ", "550 "]

/-- `_managed_transfer_login_responses`. -/
def loginResponses (usernameSecretRef passwordSecretRef : String)
    (profile : TransferInteractionProfile) : List PromptResponse :=
  [{ pattern := profile.hostKeyPrompt, text := "yes", maxMatches := 1 },
    { pattern := profile.usernamePrompt, secretRef := usernameSecretRef, maxMatches := 1 },
    { pattern := profile.passwordPrompt, secretRef := passwordSecretRef, maxMatches := 2 }]

/-- The step with which the client connects. -/
def connectStep (protocol : TransferProtocol) (endpoint : TransferEndpoint)
    (environment : TerminalEnvironment) (profile : TransferInteractionProfile) :
    Except TransferError TransferStep :=
  let port := toString endpoint.port
  let label (name : String) := "连接 " ++ name ++ " 服务"
  if environment = .linux ∧ protocol = .sftp then
    if endpoint.connectSecretRef = "" then
      .error (.managed "invalid_request" "Linux SFTP 连接缺少临时身份命令。")
    else .ok (.sendSecret endpoint.connectSecretRef ("sftp -P " ++ port ++ " ")
      ("@" ++ shlexQuote endpoint.host) (label "SFTP"))
  else .ok (.send (profile.connectTemplate protocol.text endpoint.host port)
    (label (match protocol with
      | .ftp => "FTP"
      | .sftp => "SFTP")))

/-- The steps of the login: the prompts of FTP one by one where both references are given. -/
def loginSteps (protocol : TransferProtocol) (responses : List PromptResponse)
    (timeoutSeconds : ℕ) (profile : TransferInteractionProfile)
    (usernameSecretRef passwordSecretRef : String) : List TransferStep :=
  let done : Expectation := {
    success := [protocol.prompt, "ftp_prompt"]
    failures := loginFailures
    timeoutSeconds := timeoutSeconds
    label := profile.loginLabel
    timeoutCode := profile.connectTimeoutCode }
  if protocol = .ftp ∧ usernameSecretRef ≠ "" ∧ passwordSecretRef ≠ "" then
    [.expect { done with
        success := [profile.usernamePrompt]
        label := "等待 FTP 用户名提示"
        timeoutCode := profile.connectTimeoutCode ++ "_username" },
      .sendSecret usernameSecretRef "" "" "发送 FTP 用户名",
      .expect { done with
        success := [profile.passwordPrompt]
        label := "等待 FTP 密码提示"
        timeoutCode := profile.connectTimeoutCode ++ "_password" },
      .sendSecret passwordSecretRef "" "" "发送 FTP 密码",
      .expect done]
  else [.expect { done with responses := responses }]

/-- The steps into binary mode. -/
def binarySteps (protocol : TransferProtocol) (profile : TransferInteractionProfile) :
    List TransferStep :=
  if protocol = .ftp then
    [.send profile.binaryCommand "切换二进制模式",
      .expect {
        success := ["ftp_prompt"]
        failures := ["500 ", "502 ", "Unknown FTP command", "Error:"]
        timeoutSeconds := 30
        label := "确认二进制模式"
        timeoutCode := profile.binaryTimeoutCode }]
  else []

/-- `_managed_transfer_connect_steps`, given the references of a login of its own. -/
def connectSteps (protocol : TransferProtocol) (endpoint : TransferEndpoint)
    (environment : TerminalEnvironment) (profile : TransferInteractionProfile)
    (usernameSecretRef passwordSecretRef : String) : Except TransferError (List TransferStep) := do
  let connect ← connectStep protocol endpoint environment profile
  let responses := loginResponses endpoint.usernameSecretRef endpoint.passwordSecretRef profile
  return connect :: (loginSteps protocol responses 45 profile usernameSecretRef passwordSecretRef ++
    binarySteps protocol profile)

/-- The seconds that a transfer may take. -/
def transferTimeout (sourceSize : ℕ) : ℕ := min 3500 (max 120 (sourceSize / (1024 * 1024) * 2))

/-- The steps that transfer with a line of the file client and leave it. -/
def transferSteps (protocol : TransferProtocol) (line label waiting : String)
    (responses : List PromptResponse) (sourceSize : ℕ) (profile : TransferInteractionProfile) :
    List TransferStep :=
  [.send line label,
    .expect {
      success := [protocol.prompt, "ftp_prompt"]
      responses := responses
      failures := transferFailures
      timeoutSeconds := transferTimeout sourceSize
      label := waiting
      timeoutCode := profile.transferTimeoutCode
      maxOutputChars := some 32768 },
    .send profile.quitCommand "退出文件客户端",
    .expect {
      success := ["device_prompt"]
      failures := ["Error:", "500 ", "502 ", "550 "]
      timeoutSeconds := 30
      label := "返回设备命令行"
      timeoutCode := profile.exitTimeoutCode }]

/-- `build_managed_transfer_steps`, and the seconds of the whole plan. -/
def buildManagedTransferSteps [PyLib] (endpoint : TransferEndpoint) (data : TransferData)
    (profile : TransferInteractionProfile) : Except TransferError (List TransferStep × ℕ) := do
  let protocol ← normalizeProtocol endpoint.protocol
  let connect ← connectSteps protocol endpoint data.environment profile
    endpoint.usernameSecretRef endpoint.passwordSecretRef
  let line := profile.downloadTemplate (quoteTransferArgument data.sourcePath)
    (quoteTransferArgument data.destinationPath)
  let responses : List PromptResponse :=
    if data.overwrite then [{ pattern := "confirmation_prompt", text := "y", maxMatches := 3 }]
    else []
  return (connect ++ transferSteps protocol line ("下载 " ++ data.sourcePath) "等待文件下载完成"
    responses data.sourceSize profile, min 3600 (transferTimeout data.sourceSize + 120))

/-- `build_managed_transfer_download_steps`, and the seconds of the whole plan: the login has no
references of its own. -/
def buildManagedTransferDownloadSteps [PyLib] (endpoint : TransferEndpoint) (data : TransferData)
    (profile : TransferInteractionProfile) : Except TransferError (List TransferStep × ℕ) := do
  let protocol ← normalizeProtocol endpoint.protocol
  let connect ← connectSteps protocol endpoint data.environment profile "" ""
  let line := profile.uploadTemplate (quoteTransferArgument data.sourcePath)
    (quoteTransferArgument data.destinationPath)
  return (connect ++ transferSteps protocol line ("上传 " ++ data.sourcePath) "等待文件上传完成" []
    data.sourceSize profile, min 3600 (transferTimeout data.sourceSize + 120))

/-- `build_ftpget_command`. -/
def buildFtpgetCommand (username password host sourcePath : String) :
    Except TransferError String := do
  let normalizedHost := strip host
  if normalizedHost = "" then
    throw (.managed "service_endpoint_unavailable" "FTP 服务地址不能为空。")
  let normalizedSource ← validateRelativePath sourcePath "source_path"
  return " ".intercalate ["ftpget", "-u", shlexQuote username, "-p", shlexQuote password,
    shlexQuote normalizedHost, shlexQuote (asPosix normalizedSource)]

end DeviceShell.Transfers
