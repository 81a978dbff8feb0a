import DeviceShell.Lib.Incremental
import DeviceShell.Lib.Utf8
import Mathlib.Data.Int.Notation

/-!
# Telnet sessions

The receiving half of `HuaweiTelnetSession` in `infrastructure/transports/telnet_session.py`: what
`_process_bytes` takes from the bytes of a read, what it answers and what it shows. One round of its
loop is `nextCommand`, on the bytes from the index on; `commandReader` carries that a round does not
look beyond the bytes it takes.
-/

namespace DeviceShell.Telnet

def iac : UInt8 := 255
def dont : UInt8 := 254
def «do» : UInt8 := 253
def wont : UInt8 := 252
def will : UInt8 := 251
def sb : UInt8 := 250
def se : UInt8 := 240

/-- `NEGOTIATION_COMMANDS`. -/
def negotiationCommands : List UInt8 := [«do», dont, will, wont]

def optionEcho : UInt8 := 1
def optionSuppressGoAhead : UInt8 := 3
def optionTerminalType : UInt8 := 24
def optionNaws : UInt8 := 31
def terminalTypeIs : UInt8 := 0
def terminalTypeSend : UInt8 := 1

/-- `TERM_TYPE`. -/
def termType : String := "xterm-256color"

/-! ## Commands -/

/-- What a round of the loop takes. -/
inductive Command where
  /-- A byte that is appended to `visible`. -/
  | visible (byte : UInt8)
  /-- Bytes that are passed over. -/
  | skipped
  | negotiation (command option : UInt8)
  | subnegotiation (payload : List UInt8)
deriving DecidableEq, Repr

/-- The bytes up to the first `IAC SE`, and those after it. -/
def splitEnd : List UInt8 → Option (List UInt8 × List UInt8)
  | first :: second :: rest =>
    if first = iac ∧ second = se then some ([], rest)
    else (splitEnd (second :: rest)).map fun parts => (first :: parts.1, parts.2)
  | _ => none

/-- A round of the loop after the byte `IAC`. -/
def afterIac : List UInt8 → Option (Command × List UInt8)
  | [] => none
  | command :: rest =>
    if command = iac then some (.visible iac, rest)
    else if command ∈ negotiationCommands then match rest with
      | [] => none
      | option :: rest => some (.negotiation command option, rest)
    else if command = sb then
      (splitEnd rest).map fun parts => (.subnegotiation parts.1, parts.2)
    else some (.skipped, rest)

/-- A round of the loop: the command, and the bytes after it, unless the command is not there as a
whole. -/
def nextCommand : List UInt8 → Option (Command × List UInt8)
  | [] => none
  | byte :: rest =>
    if byte = iac then afterIac rest
    else some (if byte = 0 then .skipped else .visible byte, rest)

theorem splitEnd_length {xs payload rest : List UInt8} (h : splitEnd xs = some (payload, rest)) :
    rest.length < xs.length := by
  induction xs generalizing payload with
  | nil => simp [splitEnd] at h
  | cons first xs ih =>
    cases xs with
    | nil => simp [splitEnd] at h
    | cons second xs =>
      rw [splitEnd] at h
      by_cases hend : first = iac ∧ second = se
      · rw [if_pos hend] at h
        cases h
        simp only [List.length_cons]
        omega
      · rw [if_neg hend] at h
        obtain ⟨parts, hparts, heq⟩ := Option.map_eq_some_iff.1 h
        cases heq
        have hshort := ih hparts
        simp only [List.length_cons] at hshort ⊢
        omega

theorem splitEnd_append {xs payload rest : List UInt8} (h : splitEnd xs = some (payload, rest))
    (more : List UInt8) : splitEnd (xs ++ more) = some (payload, rest ++ more) := by
  induction xs generalizing payload with
  | nil => simp [splitEnd] at h
  | cons first xs ih =>
    cases xs with
    | nil => simp [splitEnd] at h
    | cons second xs =>
      rw [splitEnd] at h
      rw [List.cons_append, List.cons_append, splitEnd]
      by_cases hend : first = iac ∧ second = se
      · rw [if_pos hend] at h ⊢
        cases h
        rfl
      · rw [if_neg hend] at h ⊢
        obtain ⟨parts, hparts, heq⟩ := Option.map_eq_some_iff.1 h
        cases heq
        rw [← List.cons_append, ih hparts]
        rfl

/-- A round takes bytes from the front, and the same whatever follows. -/
theorem afterIac_front {xs rest : List UInt8} {command : Command}
    (h : afterIac xs = some (command, rest)) : rest.length < xs.length ∧
      ∀ more, afterIac (xs ++ more) = some (command, rest ++ more) := by
  cases xs with
  | nil => simp [afterIac] at h
  | cons first xs =>
    simp only [afterIac] at h
    simp only [List.cons_append, afterIac, List.length_cons]
    by_cases hiac : first = iac
    · simp only [if_pos hiac, Option.some.injEq, Prod.mk.injEq] at h ⊢
      obtain ⟨rfl, rfl⟩ := h
      exact ⟨Nat.lt_succ_self _, fun more => ⟨rfl, rfl⟩⟩
    by_cases hnegotiation : first ∈ negotiationCommands
    · cases xs with
      | nil => simp [hiac, hnegotiation] at h
      | cons option xs =>
        simp only [if_neg hiac, if_pos hnegotiation, Option.some.injEq, Prod.mk.injEq,
          List.cons_append, List.length_cons] at h ⊢
        obtain ⟨rfl, rfl⟩ := h
        exact ⟨by omega, fun more => ⟨rfl, rfl⟩⟩
    by_cases hsb : first = sb
    · simp only [if_neg hiac, if_neg hnegotiation, if_pos hsb] at h ⊢
      obtain ⟨parts, hparts, heq⟩ := Option.map_eq_some_iff.1 h
      cases heq
      have hshort := splitEnd_length hparts
      exact ⟨by omega, fun more => by rw [splitEnd_append hparts more]; rfl⟩
    · simp only [if_neg hiac, if_neg hnegotiation, if_neg hsb, Option.some.injEq,
        Prod.mk.injEq] at h ⊢
      obtain ⟨rfl, rfl⟩ := h
      exact ⟨Nat.lt_succ_self _, fun more => ⟨rfl, rfl⟩⟩

/-- A round takes bytes from the front, and the same whatever follows. -/
theorem nextCommand_front {xs rest : List UInt8} {command : Command}
    (h : nextCommand xs = some (command, rest)) : rest.length < xs.length ∧
      ∀ more, nextCommand (xs ++ more) = some (command, rest ++ more) := by
  cases xs with
  | nil => simp [nextCommand] at h
  | cons byte xs =>
    simp only [nextCommand] at h
    simp only [List.cons_append, nextCommand, List.length_cons]
    by_cases hbyte : byte = iac
    · simp only [if_pos hbyte] at h ⊢
      obtain ⟨hshort, hmore⟩ := afterIac_front h
      exact ⟨by omega, hmore⟩
    · simp only [if_neg hbyte, Option.some.injEq, Prod.mk.injEq] at h ⊢
      obtain ⟨rfl, rfl⟩ := h
      exact ⟨Nat.lt_succ_self _, fun more => ⟨rfl, rfl⟩⟩

/-- The loop of `_process_bytes`. -/
def commandReader : Reader UInt8 Command where
  next := nextCommand
  shrinks := fun h => (nextCommand_front h).1
  stable := fun h => (nextCommand_front h).2

/-! ## Sessions -/

/-- A number of columns or lines: two bytes, and not zero. -/
structure Dimension where
  value : ℕ
  pos : 1 ≤ value
  le : value ≤ 65535

/-- `_clamp_terminal_dimension`. -/
def clampTerminalDimension (value : ℤ) : Dimension where
  value := (max 1 (min 65535 value)).toNat
  pos := by omega
  le := by omega

/-- The bytes of a number, the higher one first. -/
def Dimension.bytes (d : Dimension) : List UInt8 :=
  [UInt8.ofNat (d.value >>> 8 &&& 0xFF), UInt8.ofNat (d.value &&& 0xFF)]

/-- What a connected session remembers between two reads. -/
structure Session where
  columns : Dimension
  lines : Dimension
  nawsEnabled : Bool := false
  pendingIac : List UInt8 := []

/-- The bytes of a payload with each `IAC` doubled. -/
def escapeIac (payload : List UInt8) : List UInt8 :=
  payload.flatMap fun byte => if byte = iac then [byte, iac] else [byte]

/-- `_subnegotiation`. -/
def subnegotiation (payload : List UInt8) : List UInt8 :=
  [iac, sb] ++ escapeIac payload ++ [iac, se]

/-- The payload of `_terminal_type_subnegotiation`. -/
def terminalTypePayload : List UInt8 := [optionTerminalType, terminalTypeIs] ++ encodeUtf8 termType

/-- `_handle_subnegotiation`. -/
def handleSubnegotiation (payload : List UInt8) : List UInt8 :=
  match payload with
  | option :: kind :: _ =>
    if option = optionTerminalType ∧ kind = terminalTypeSend then
      subnegotiation terminalTypePayload
    else []
  | _ => []

namespace Session

variable (s : Session)

/-- The payload of `_naws_subnegotiation`. -/
def nawsPayload : List UInt8 := optionNaws :: s.columns.bytes ++ s.lines.bytes

/-- `_negotiate_option`. -/
def negotiateOption (command option : UInt8) : Session × List UInt8 :=
  if command = will then
    if option = optionEcho ∨ option = optionSuppressGoAhead then (s, [iac, «do», option])
    else (s, [iac, dont, option])
  else if command = «do» then
    if option = optionSuppressGoAhead then (s, [iac, will, option])
    else if option = optionNaws then
      ({ s with nawsEnabled := true }, [iac, will, option] ++ subnegotiation s.nawsPayload)
    else if option = optionTerminalType then (s, [iac, will, option])
    else (s, [iac, wont, option])
  else if command = wont then
    (if option = optionNaws then { s with nawsEnabled := false } else s, [iac, dont, option])
  else (s, [iac, wont, option])

/-- What a command adds to `outgoing`. -/
def answer : Command → Session × List UInt8
  | .negotiation command option => s.negotiateOption command option
  | .subnegotiation payload => (s, handleSubnegotiation payload)
  | _ => (s, [])

end Session

/-- `outgoing` after the commands of a read. -/
def answers : Session → List Command → Session × List UInt8
  | s, [] => (s, [])
  | s, command :: rest =>
    let (s, replies) := s.answer command
    let (s, later) := answers s rest
    (s, replies ++ later)

/-- The byte that a command shows. -/
def Command.shown? : Command → Option UInt8
  | .visible byte => some byte
  | _ => none

/-- `visible` after the commands of a read. The two replacements after the loop take out the zero
bytes. -/
def shownBytes (commands : List Command) : List UInt8 :=
  (commands.filterMap Command.shown?).filter (· ≠ 0)

/-- What a session sends and shows. -/
structure Reaction where
  replies : List UInt8
  text : String

/-- `_process_bytes`. -/
def processBytes (s : Session) (data : List UInt8) : Session × Reaction :=
  let (commands, left) := commandReader.read (s.pendingIac ++ data)
  let (s, replies) := answers s commands
  ({ s with pendingIac := left }, ⟨replies, String.ofList (decodeIgnore (shownBytes commands))⟩)

/-- The reads of a session, and all that it sends and shows. -/
def receive : Session → List (List UInt8) → Session × Reaction
  | s, [] => (s, ⟨[], ""⟩)
  | s, data :: rest =>
    let (s, first) := processBytes s data
    let (s, later) := receive s rest
    (s, ⟨first.replies ++ later.replies, first.text ++ later.text⟩)

end DeviceShell.Telnet
