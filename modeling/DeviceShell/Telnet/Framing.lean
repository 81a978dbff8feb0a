import DeviceShell.Telnet.Session

/-!
# Subnegotiations

A payload is sent between `IAC SB` and `IAC SE` with each `IAC` in it doubled. The session doubles
it when it sends, but takes the bytes up to the first `IAC SE` as they are when it receives: a
payload comes through exactly if there is no `IAC` in it (`framing_iff`).
-/

namespace DeviceShell.Telnet

open String (utf8EncodeChar)

/-! ## Texts -/

/-- No byte of an encoding is `IAC`, and only that of the character zero is zero. -/
theorem utf8EncodeChar_bytes {c : Char} {byte : UInt8} (h : byte ∈ utf8EncodeChar c) :
    byte ≠ iac ∧ (byte = 0 → c = '\x00') := by
  have hnumber : ∃ n, byte = UInt8.ofNat n ∧ n < 255 ∧ (n = 0 → c.val.toNat = 0) := by
    unfold utf8EncodeChar at h
    dsimp only at h
    split_ifs at h with hone htwo hthree
    · rw [List.mem_singleton] at h
      exact ⟨_, h, by omega, id⟩
    · simp only [List.mem_cons, List.not_mem_nil, or_false] at h
      rcases h with h | h <;> exact ⟨_, h, by omega, by omega⟩
    · simp only [List.mem_cons, List.not_mem_nil, or_false] at h
      rcases h with h | h | h <;> exact ⟨_, h, by omega, by omega⟩
    · simp only [List.mem_cons, List.not_mem_nil, or_false] at h
      rcases h with h | h | h | h <;> exact ⟨_, h, by omega, by omega⟩
  obtain ⟨n, rfl, hlt, hzero⟩ := hnumber
  have hvalue : (UInt8.ofNat n).toNat = n := UInt8.toNat_ofNat_of_lt' (show n < 256 by omega)
  constructor
  · intro hiac
    have htop : (UInt8.ofNat n).toNat = 255 := by rw [hiac]; rfl
    omega
  · intro hnull
    have hbottom : (UInt8.ofNat n).toNat = 0 := by rw [hnull]; rfl
    have hchar : c.toNat = ('\x00' : Char).toNat := hzero (by omega)
    exact Char.toNat_inj.1 hchar

/-- Bytes without an `IAC` are shown, but for zeros. -/
theorem read_plain {bytes : List UInt8} (h : iac ∉ bytes) : commandReader.read bytes =
    (bytes.map fun byte => if byte = 0 then .skipped else .visible byte, []) := by
  induction bytes with
  | nil => rfl
  | cons byte rest ih =>
    rw [List.mem_cons, not_or] at h
    have hnext : commandReader.next (byte :: rest) =
        some (if byte = 0 then .skipped else .visible byte, rest) :=
      if_neg fun hbyte => h.1 hbyte.symm
    rw [commandReader.read_of_some hnext, ih h.2]
    rfl

/-! ## Payloads -/

/-- A payload ends before an `IAC SE`. -/
theorem splitEnd_sound {xs payload rest : List UInt8} (h : splitEnd xs = some (payload, rest)) :
    xs = payload ++ iac :: se :: rest := by
  induction xs generalizing payload with
  | nil => simp [splitEnd] at h
  | cons first xs ih =>
    cases xs with
    | nil => simp [splitEnd] at h
    | cons second xs =>
      rw [splitEnd] at h
      by_cases hend : first = iac ∧ second = se
      · rw [if_pos hend] at h
        cases h
        rw [hend.1, hend.2, List.nil_append]
      · rw [if_neg hend] at h
        obtain ⟨parts, hparts, heq⟩ := Option.map_eq_some_iff.1 h
        cases heq
        rw [ih hparts, List.cons_append]

theorem splitEnd_cons {first : UInt8} {xs payload rest : List UInt8}
    (hfirst : ¬(first = iac ∧ xs.head? = some se)) (h : splitEnd xs = some (payload, rest)) :
    splitEnd (first :: xs) = some (first :: payload, rest) := by
  cases xs with
  | nil => simp [splitEnd] at h
  | cons second xs =>
    rw [List.head?_cons, Option.some_inj] at hfirst
    rw [splitEnd, if_neg hfirst, h]
    rfl

/-- A payload without an `IAC` is taken as a whole. -/
theorem splitEnd_plain {payload : List UInt8} (h : iac ∉ payload) (rest : List UInt8) :
    splitEnd (payload ++ iac :: se :: rest) = some (payload, rest) := by
  induction payload with
  | nil => rfl
  | cons byte payload ih =>
    rw [List.mem_cons, not_or] at h
    exact splitEnd_cons (fun hbyte => h.1 hbyte.1.symm) (ih h.2)

theorem escapeIac_plain {payload : List UInt8} (h : iac ∉ payload) :
    escapeIac payload = payload := by
  induction payload with
  | nil => rfl
  | cons byte payload ih =>
    rw [List.mem_cons, not_or] at h
    unfold escapeIac at ih ⊢
    rw [List.flatMap_cons, if_neg fun hbyte => h.1 hbyte.symm, ih h.2]
    rfl

/-- Of the bytes that begin with an `IAC` which is not doubled yet, no part before an `IAC SE` is the
payload. -/
theorem escapeIac_shifted (payload rest rest' : List UInt8) (n : ℕ) :
    List.replicate (n + 1) iac ++ escapeIac payload ++ iac :: se :: rest ≠
      payload ++ iac :: se :: rest' := by
  intro h
  induction payload generalizing n with
  | nil =>
    have htail := (List.cons.inj h).2
    cases n with
    | zero => exact absurd (List.cons.inj htail).1 (by decide)
    | succ n => exact absurd (List.cons.inj htail).1 (by decide)
  | cons byte payload ih =>
    obtain ⟨rfl, htail⟩ := List.cons.inj h
    refine ih (n + 1) (Eq.trans ?_ htail)
    simp [escapeIac, List.replicate_succ']

/-- With an `IAC` in it, an escaped payload is never taken as the payload. -/
theorem not_mem_of_escaped {payload rest rest' : List UInt8}
    (h : escapeIac payload ++ iac :: se :: rest = payload ++ iac :: se :: rest') :
    iac ∉ payload := by
  induction payload with
  | nil => exact List.not_mem_nil
  | cons byte payload ih =>
    by_cases hbyte : byte = iac
    · subst hbyte
      have htail := (List.cons.inj h).2
      exact absurd htail (escapeIac_shifted payload rest rest' 0)
    · have hescape : escapeIac (byte :: payload) = byte :: escapeIac payload := by
        simp [escapeIac, hbyte]
      rw [hescape] at h
      have hrest := ih (List.cons.inj h).2
      simp [hrest, Ne.symm hbyte]

/-! ## Frames -/

/-- A subnegotiation and a text after it. -/
def frame (option : UInt8) (payload : List UInt8) (text : String) : List UInt8 :=
  [iac, sb, option] ++ escapeIac payload ++ [iac, se] ++ encodeUtf8 text

/-- The session takes the subnegotiation with this payload and then the text, and shows the text. -/
structure Framed (s : Session) (option : UInt8) (payload : List UInt8) (text : String) : Prop where
  taken : commandReader.read (frame option payload text) =
    (.subnegotiation (option :: payload) :: (encodeUtf8 text).map .visible, [])
  shown : (processBytes s (frame option payload text)).2.text = text

/-- A subnegotiation that is sent is read as the payload that it was made of. -/
def SentBack (payload : List UInt8) : Prop :=
  commandReader.read (subnegotiation payload) = ([.subnegotiation payload], [])

/-- The bytes after `IAC SB` are read as a payload and what follows. -/
theorem next_frame {bytes payload rest : List UInt8} (h : splitEnd bytes = some (payload, rest)) :
    commandReader.next (iac :: sb :: bytes) = some (.subnegotiation payload, rest) := by
  show (splitEnd bytes).map _ = _
  rw [h]
  rfl

/-- What is read as a subnegotiation first has been split off. -/
theorem splitEnd_of_read {bytes payload : List UInt8} {later : List Command} {left : List UInt8}
    (h : commandReader.read (iac :: sb :: bytes) = (.subnegotiation payload :: later, left)) :
    ∃ rest, splitEnd bytes = some (payload, rest) ∧ commandReader.read rest = (later, left) := by
  cases hsplit : splitEnd bytes with
  | none =>
    have hnext : commandReader.next (iac :: sb :: bytes) = none := by
      show (splitEnd bytes).map _ = _
      rw [hsplit]
      rfl
    rw [commandReader.read_of_none hnext] at h
    cases h
  | some parts =>
    obtain ⟨first, rest⟩ := parts
    rw [commandReader.read_of_some (next_frame hsplit)] at h
    obtain ⟨hcommands, hleft⟩ := Prod.mk.inj h
    obtain ⟨hpayload, hlater⟩ := List.cons.inj hcommands
    cases hpayload
    exact ⟨rest, rfl, Prod.ext hlater hleft⟩

/-- What is sent is read back exactly if there is no `IAC` in it. -/
theorem sentBack_iff (payload : List UInt8) : SentBack payload ↔ iac ∉ payload := by
  have hframe : subnegotiation payload = iac :: sb :: (escapeIac payload ++ iac :: se :: []) := rfl
  unfold SentBack
  rw [hframe]
  constructor
  · intro h
    obtain ⟨rest, hsplit, -⟩ := splitEnd_of_read h
    exact not_mem_of_escaped (splitEnd_sound hsplit)
  · intro h
    rw [escapeIac_plain h, commandReader.read_of_some (next_frame (splitEnd_plain h []))]
    rfl

/-- The frame of a payload comes through exactly if there is no `IAC` in the payload, the option and
the payload do not begin with the end themselves, and the text holds no zero. -/
theorem framed_iff {s : Session} (hpending : s.pendingIac = []) (option : UInt8)
    (payload : List UInt8) (text : String) : Framed s option payload text ↔
      iac ∉ payload ∧ ¬(option = iac ∧ payload.head? = some se) ∧ '\x00' ∉ text.toList := by
  have hframe : frame option payload text =
      iac :: sb :: option :: (escapeIac payload ++ iac :: se :: encodeUtf8 text) := by
    simp [frame]
  have hplain : iac ∉ encodeUtf8 text := by
    intro hmem
    obtain ⟨c, -, hc⟩ := List.mem_flatMap.1 hmem
    exact (utf8EncodeChar_bytes hc).1 rfl
  constructor
  · rintro ⟨htaken, -⟩
    rw [hframe] at htaken
    obtain ⟨rest, hsplit, hread⟩ := splitEnd_of_read htaken
    have hsame := (List.cons.inj (splitEnd_sound hsplit)).2
    have hpayload := not_mem_of_escaped hsame
    rw [escapeIac_plain hpayload] at hsplit hsame
    refine ⟨hpayload, ?_, fun hzero => ?_⟩
    · rintro ⟨rfl, hhead⟩
      obtain ⟨payload, rfl⟩ := List.head?_eq_some_iff.1 hhead
      have hempty : splitEnd (iac :: (se :: payload ++ iac :: se :: encodeUtf8 text)) =
          some ([], payload ++ iac :: se :: encodeUtf8 text) := rfl
      rw [hempty] at hsplit
      cases hsplit
    · -- The rest is the text, whose zeros are passed over.
      obtain rfl : encodeUtf8 text = rest :=
        (List.cons.inj (List.cons.inj (List.append_cancel_left hsame)).2).2
      have hmem : (0 : UInt8) ∈ encodeUtf8 text := by
        refine List.mem_flatMap.2 ⟨_, hzero, ?_⟩
        decide
      rw [read_plain hplain] at hread
      have hbytes := List.map_inj_left.1 (Prod.mk.inj hread).1 0 hmem
      rw [if_pos rfl] at hbytes
      cases hbytes
  · rintro ⟨hpayload, hfirst, hzero⟩
    have hbyte : ∀ byte ∈ encodeUtf8 text, byte ≠ 0 := by
      rintro byte hmem rfl
      obtain ⟨c, hc, hchar⟩ := List.mem_flatMap.1 hmem
      obtain rfl := (utf8EncodeChar_bytes hchar).2 rfl
      exact hzero hc
    have hhead : ¬(option = iac ∧
        (payload ++ iac :: se :: encodeUtf8 text).head? = some se) := by
      cases payload with
      | nil => exact fun h => absurd (Option.some.inj h.2) (by decide)
      | cons first payload => exact hfirst
    have hsplit := splitEnd_cons hhead (splitEnd_plain hpayload (encodeUtf8 text))
    have hread : commandReader.read (encodeUtf8 text) = ((encodeUtf8 text).map .visible, []) := by
      rw [read_plain hplain]
      exact Prod.ext (List.map_inj_left.2 fun byte hmem => if_neg (hbyte byte hmem)) rfl
    have htaken : commandReader.read (frame option payload text) =
        (.subnegotiation (option :: payload) :: (encodeUtf8 text).map .visible, []) := by
      rw [hframe, escapeIac_plain hpayload, commandReader.read_of_some (next_frame hsplit), hread]
    refine ⟨htaken, ?_⟩
    have hshown : shownBytes (.subnegotiation (option :: payload) ::
        (encodeUtf8 text).map .visible) = encodeUtf8 text := by
      have hvisible : ((encodeUtf8 text).map Command.visible).filterMap Command.shown? =
          encodeUtf8 text := by
        rw [List.filterMap_map]
        exact List.filterMap_some
      unfold shownBytes
      rw [List.filterMap_cons_none rfl, hvisible]
      exact List.filter_eq_self.2 fun byte hmem => decide_eq_true (hbyte byte hmem)
    have htext : (processBytes s (frame option payload text)).2.text = String.ofList
        (decodeIgnore (shownBytes (commandReader.read
          (s.pendingIac ++ frame option payload text)).1)) := rfl
    rw [htext, hpending, List.nil_append, htaken, hshown, decodeIgnore_encodeUtf8,
      String.ofList_toList]

/-- Every frame comes through, and what the session sends is read back, exactly if no payload holds
an `IAC`; the option and the payload of the frame must not begin with the end themselves either, and
a zero in the text is not shown. -/
theorem framing_iff (columns lines : Dimension) (option : UInt8) (payload : List UInt8)
    (text : String) : let s : Session := { columns, lines }
    (Framed s option payload text ∧
        ∀ sent ∈ [s.nawsPayload, terminalTypePayload], SentBack sent) ↔
      iac ∉ payload ∧ ¬(option = iac ∧ payload.head? = some se) ∧ '\x00' ∉ text.toList ∧
        iac ∉ columns.bytes ++ lines.bytes := by
  intro s
  have hnaws : iac ∉ s.nawsPayload ↔ iac ∉ columns.bytes ++ lines.bytes := by
    have hoption : iac ≠ optionNaws := by decide
    show iac ∉ optionNaws :: (columns.bytes ++ lines.bytes) ↔ _
    rw [List.mem_cons, or_iff_right hoption]
  have hterminal : SentBack terminalTypePayload := (sentBack_iff _).2 (by decide)
  rw [framed_iff rfl, List.forall_mem_cons, List.forall_mem_singleton, sentBack_iff, hnaws,
    and_iff_left hterminal]
  tauto

/-- A payload of `IAC` and `SE`. -/
theorem not_framing : ¬∀ (columns lines : Dimension) (option : UInt8) (payload : List UInt8)
    (text : String), let s : Session := { columns, lines }
    Framed s option payload text ∧
      ∀ sent ∈ [s.nawsPayload, terminalTypePayload], SentBack sent := by
  intro h
  have htaken := (h (clampTerminalDimension 160) (clampTerminalDimension 40) 42 [iac, se] "x").1.taken
  exact absurd htaken (by decide)

end DeviceShell.Telnet
