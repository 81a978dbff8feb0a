import DeviceShell.Telnet.Session

/-!
# Reads of a telnet session

A session keeps a command that is not complete for the next read, so the commands do not depend on
where the stream is cut, and neither do the replies. Text is decoded read by read, and an encoding
that is not complete is dropped: the text is that of the whole stream exactly if no character is cut
(`chunkingInvariant_iff`).
-/

namespace DeviceShell.Telnet

variable {s t : Session}

/-! ## Replies -/

/-- The size of the terminal is the same; the replies depend on nothing else. -/
def Session.SameSize (s t : Session) : Prop := s.columns = t.columns ∧ s.lines = t.lines

theorem answer_size (s : Session) (command : Command) : s.SameSize (s.answer command).1 := by
  have hsame : s.SameSize s := ⟨rfl, rfl⟩
  cases command with
  | visible byte => exact hsame
  | skipped => exact hsame
  | subnegotiation payload => exact hsame
  | negotiation command option =>
    show s.SameSize (s.negotiateOption command option).1
    unfold Session.negotiateOption
    split_ifs <;> exact hsame

theorem answer_replies (h : s.SameSize t) (command : Command) :
    (s.answer command).2 = (t.answer command).2 := by
  cases command with
  | visible byte => rfl
  | skipped => rfl
  | subnegotiation payload => rfl
  | negotiation command option =>
    have hnaws : s.nawsPayload = t.nawsPayload := by
      unfold Session.nawsPayload
      rw [h.1, h.2]
    show (s.negotiateOption command option).2 = (t.negotiateOption command option).2
    unfold Session.negotiateOption
    rw [hnaws]
    split_ifs <;> rfl

/-- The answers to some commands are those to each of them. -/
theorem answers_flatMap (h : s.SameSize t) (commands : List Command) :
    s.SameSize (answers t commands).1 ∧
      (answers t commands).2 = commands.flatMap fun command => (s.answer command).2 := by
  induction commands generalizing t with
  | nil => exact ⟨h, rfl⟩
  | cons command rest ih =>
    have hsize := answer_size t command
    obtain ⟨hrest, hlater⟩ := ih ⟨h.1.trans hsize.1, h.2.trans hsize.2⟩
    refine ⟨hrest, ?_⟩
    rw [List.flatMap_cons, ← hlater, answer_replies h command]
    rfl

/-! ## Reads -/

/-- The bytes that each read shows. -/
def shownReads (s : Session) (reads : List (List UInt8)) : List (List UInt8) :=
  (commandReader.feed s.pendingIac reads).1.map shownBytes

/-- What a session sends and shows in some reads. -/
theorem receive_reaction (h : s.SameSize t) (reads : List (List UInt8)) : (receive t reads).2 =
    ⟨(commandReader.feed t.pendingIac reads).1.flatten.flatMap fun command => (s.answer command).2,
      String.ofList ((shownReads t reads).flatMap decodeIgnore)⟩ := by
  induction reads generalizing t with
  | nil => rfl
  | cons data rest ih =>
    obtain ⟨hsize, hreplies⟩ := answers_flatMap h (commandReader.read (t.pendingIac ++ data)).1
    have hlater := ih (t := (processBytes t data).1) hsize
    have hpending : (processBytes t data).1.pendingIac =
        (commandReader.read (t.pendingIac ++ data)).2 := rfl
    unfold shownReads at hlater ⊢
    rw [hpending] at hlater
    have hreaction : (receive t (data :: rest)).2 =
        ⟨(processBytes t data).2.replies ++ (receive (processBytes t data).1 rest).2.replies,
          (processBytes t data).2.text ++ (receive (processBytes t data).1 rest).2.text⟩ := rfl
    have hfirst : (processBytes t data).2.replies =
        (answers t (commandReader.read (t.pendingIac ++ data)).1).2 := rfl
    have htext : (processBytes t data).2.text = String.ofList
        (decodeIgnore (shownBytes (commandReader.read (t.pendingIac ++ data)).1)) := rfl
    rw [hreaction, hlater, hfirst, hreplies, htext]
    simp [Reader.feed, String.ofList_append]

/-- However the stream of a new session is cut into reads, the replies are those to the whole, and
the text is that of the whole exactly if no character begins in the bytes that one read shows and
ends in those of a later one. -/
theorem chunkingInvariant_iff (columns lines : Dimension) (reads : List (List UInt8)) :
    let s : Session := { columns, lines }
    ((receive s reads).2.replies = (processBytes s reads.flatten).2.replies ∧
        (receive s reads).2.text = (processBytes s reads.flatten).2.text) ↔
      ∀ before shown after, shownReads s reads = before ++ shown :: after →
        ¬CutsCharacter shown after.flatten := by
  intro s
  have hparts := receive_reaction (s := s) (t := s) ⟨rfl, rfl⟩ reads
  have hwhole : (commandReader.read reads.flatten).1 =
      (commandReader.feed s.pendingIac reads).1.flatten := by
    have hempty : commandReader.next [] = none := commandReader.next_nil
    have hfeed := commandReader.feed_reads reads hempty
    rw [List.nil_append] at hfeed
    rw [← hfeed]
  have hreplies : (processBytes s reads.flatten).2.replies =
      (commandReader.feed s.pendingIac reads).1.flatten.flatMap
        fun command => (s.answer command).2 := by
    rw [← hwhole]
    exact (answers_flatMap (s := s) (t := s) ⟨rfl, rfl⟩ _).2
  have hshown : shownBytes (commandReader.read reads.flatten).1 = (shownReads s reads).flatten := by
    unfold shownReads
    rw [hwhole]
    generalize (commandReader.feed s.pendingIac reads).1 = parts
    induction parts with
    | nil => rfl
    | cons part parts ih =>
      rw [List.map_cons, List.flatten_cons, List.flatten_cons, ← ih]
      simp [shownBytes]
  have htext : (processBytes s reads.flatten).2.text =
      String.ofList (decodeIgnore (shownReads s reads).flatten) := by
    rw [← hshown]
    rfl
  rw [hparts, hreplies, htext, ← decodeIgnore_flatten_iff, String.ofList_inj]
  exact and_iff_right rfl

/-- The letter `é` in two reads. -/
theorem not_chunkingInvariant : ¬∀ (columns lines : Dimension) (reads : List (List UInt8)),
    let s : Session := { columns, lines }
    (receive s reads).2.replies = (processBytes s reads.flatten).2.replies ∧
      (receive s reads).2.text = (processBytes s reads.flatten).2.text := by
  intro h
  have hcut := (h (clampTerminalDimension 160) (clampTerminalDimension 40) [[0xC3], [0xA9]]).2
  exact absurd hcut (by decide)

end DeviceShell.Telnet
