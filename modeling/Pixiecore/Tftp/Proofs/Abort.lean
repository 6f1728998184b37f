import Pixiecore.Tftp.Proofs.Step

/-!
# What is reported of a client that aborts

`sendPacket` returns the text of an ERROR datagram in its own error. It looks for the end of that
text in the whole array that it receives into, where a text without a NUL is followed by what
earlier datagrams of the same try have left behind. What is shown here of `sendPacket` on its own is
what happens within a transfer (`run_sendPacketFrom`).
-/

namespace Pixiecore.Tftp

/-! ## `sendPacket` within a transfer -/

section Transfer

variable (req : Rrq) (ph : Phase req.bsize)

/-- What `transfer` writes once `sendPacket` is where it is, and where it ends up itself. -/
def afterSend : Sent → List Bytes × State req.bsize
  | .waiting w => ([], .sending ph w)
  | .returned (some err) _ => ([], .returned (.failed err))
  | .returned none rest =>
    let (s, ws) := afterAck req ph
    let (es, s) := run req s rest
    (ws ++ writes es, s)

/-- A transfer that is sending a packet does what `sendPacket` does, and goes on from there. -/
theorem run_sendPacketFrom (w : Waiting) (os : List ReadOutcome) :
    (writes (run req (.sending ph w) os).1, (run req (.sending ph w) os).2) =
      ((sendPacketFrom (ph.packet req) ph.seq w os).1 ++
          (afterSend req ph (sendPacketFrom (ph.packet req) ph.seq w os).2).1,
        (afterSend req ph (sendPacketFrom (ph.packet req) ph.seq w os).2).2) := by
  induction os generalizing w with
  | nil => rfl
  | cons o os ih =>
    rw [run_sending]
    cases sent : sendPacketRead ph.seq w o with
    | wait w' =>
      simp only [resume, sendPacketFrom, sent, List.map_nil, List.singleton_append, writes_read]
      exact ih w'
    | retry w' =>
      obtain ⟨wrote, ended⟩ := Prod.mk.inj (ih w')
      simp only [resume, sendPacketFrom, sent, List.map_cons, List.map_nil, List.cons_append,
        List.nil_append, writes_read, writes_write, wrote, ended]
    | ret err =>
      cases err with
      | some err => simp [resume, sendPacketFrom, sent, afterSend]
      | none => simp [resume, sendPacketFrom, sent, afterSend]

end Transfer

/-! ## The text of an ERROR datagram -/

/-- What `sendPacket` takes for the text, given the array. -/
def abortText (recv : Bytes) : Bytes := ((nullStr (recv.drop 4)).map Prod.fst).getD []

theorem sendPacketRead_abort (seq : UInt16) (w : Waiting) {e : Bytes} (abort : IsAbort e) :
    sendPacketRead seq w (.datagram e) =
      .ret (some (.clientAborted (abortText (w.receive e).recv))) := by
  obtain ⟨long, opcode⟩ := abort
  have kept : ¬ min e.length 256 < 4 := by omega
  have isError : uint16 (slice (w.receive e).recv 0 2) = 5 := (receive_header w long).1.trans opcode
  have notAck : ¬ (5 : UInt16) = 4 := by decide
  simp only [sendPacketRead, if_neg kept, isError, if_neg notAck, if_true]
  rfl

theorem sendPacketFrom_abort (b : Bytes) {seq : UInt16} {w w' : Waiting} {pre : List ReadOutcome}
    {e : Bytes} (abort : IsAbort e) (waits : (sendPacketFrom b seq w pre).2 = .waiting w') :
    (sendPacketFrom b seq w (pre ++ [.datagram e])).2 =
      .returned (some (.clientAborted (abortText (w'.receive e).recv))) [] := by
  induction pre generalizing w with
  | nil =>
    cases waits
    simp only [List.nil_append, sendPacketFrom, sendPacketRead_abort seq _ abort]
  | cons o pre ih =>
    rw [List.cons_append]
    cases sent : sendPacketRead seq w o with
    | wait w1 =>
      simp only [sendPacketFrom, sent] at waits ⊢
      exact ih waits
    | retry w1 =>
      simp only [sendPacketFrom, sent] at waits ⊢
      exact ih waits
    | ret err =>
      simp only [sendPacketFrom, sent] at waits
      cases waits

/-- Whatever comes before it, an ERROR datagram makes `sendPacket` return the text that is then in
the array. -/
theorem sendPacket_abort (b : Bytes) {seq : UInt16} {w : Waiting} {pre : List ReadOutcome}
    {e : Bytes} (abort : IsAbort e) (waits : (sendPacket b seq pre).2 = .waiting w) :
    (sendPacket b seq (pre ++ [.datagram e])).2 =
      .returned (some (.clientAborted (abortText (w.receive e).recv))) [] :=
  sendPacketFrom_abort b abort waits

/-- The array after a datagram: as much of the datagram as fits, and the rest of what was there
before. -/
theorem recv_receive (w : Waiting) (e : Bytes) :
    (w.receive e).recv = e.take 256 ++ w.recv.drop e.length := by
  simp only [Waiting.receive, copyAt, w.recv_size, List.take_zero, List.nil_append, Nat.sub_zero,
    Nat.zero_add]

/-- What there is room for of the text. -/
def keptText (e : Bytes) : Bytes := (e.drop 4).take 252

theorem drop_recv_receive (w : Waiting) {e : Bytes} (long : 4 ≤ e.length) :
    (w.receive e).recv.drop 4 = keptText e ++ w.recv.drop e.length := by
  have front : 4 ≤ (e.take 256).length := by
    rw [List.length_take]
    omega
  rw [recv_receive, List.drop_append_of_le_length front, List.drop_take, keptText]

/-- The text of the datagram itself. -/
def ownText (e : Bytes) : Bytes := ((nullStr (keptText e)).map Prod.fst).getD []

theorem ownText_infix (e : Bytes) : ownText e <:+: e := by
  have kept : keptText e <:+: e :=
    (List.take_prefix 252 (e.drop 4)).isInfix.trans (List.drop_suffix 4 e).isInfix
  rw [ownText]
  cases read : nullStr (keptText e) with
  | none => exact List.nil_infix
  | some r =>
    obtain ⟨s, rest⟩ := r
    obtain ⟨whole, _⟩ := nullStr_some read
    have front : s <+: keptText e := ⟨0 :: rest, whole.symm⟩
    exact front.isInfix.trans kept

theorem ownText_mkError {s : Bytes} (noNul : (0 : UInt8) ∉ s) (fits : s.length ≤ 251) :
    ownText (mkError s) = s := by
  have kept : keptText (mkError s) = s ++ [0] := by
    rw [mkError_eq]
    show (s ++ [0]).take 252 = s ++ [0]
    apply List.take_of_length_le
    rw [List.length_append, List.length_singleton]
    omega
  rw [ownText, kept, nullStr_append [] noNul]
  rfl

/-- Of a datagram whose text ends within the array, or which fills the array, nothing is reported
but its own text. -/
theorem abortText_receive (w : Waiting) {e : Bytes} (long : 4 ≤ e.length)
    (ends : 0 ∈ keptText e ∨ 256 ≤ e.length) : abortText (w.receive e).recv = ownText e := by
  rw [abortText, ownText, drop_recv_receive w long]
  rcases ends with nul | full
  · cases read : nullStr (keptText e) with
    | none => exact absurd nul (nullStr_eq_none_iff.mp read)
    | some r =>
      obtain ⟨s, rest⟩ := r
      obtain ⟨whole, noNul⟩ := nullStr_some read
      rw [whole, List.append_assoc, List.cons_append, nullStr_append _ noNul]
      rfl
  · have nothing : w.recv.drop e.length = [] :=
      List.drop_eq_nil_of_le (by rw [w.recv_size]; exact full)
    rw [nothing, List.append_nil]

/-! ## What is left in the array -/

/-- Over a zeroed array, a text that does not end is reported as it is. -/
theorem abortText_first {e : Bytes} (long : 4 ≤ e.length) (short : e.length < 256)
    (noNul : 0 ∉ keptText e) : abortText (Waiting.first.receive e).recv = keptText e := by
  have zeros : Waiting.first.recv.drop e.length = 0 :: List.replicate (255 - e.length) 0 := by
    have split : 256 - e.length = (255 - e.length) + 1 := by omega
    show (List.replicate 256 (0 : UInt8)).drop e.length = _
    rw [List.drop_replicate, split, List.replicate_succ]
  rw [abortText, drop_recv_receive _ long, zeros, nullStr_append _ noNul]
  rfl

/-- A datagram that `sendPacket` passes over, and which fills the array with ones up to the last
byte. -/
def filling (last : UInt8) : Bytes := List.replicate 255 1 ++ [last]

theorem length_filling (last : UInt8) : (filling last).length = 256 := by
  rw [filling, List.length_append, List.length_replicate, List.length_singleton]

theorem sendPacket_filling (b : Bytes) (seq : UInt16) (last : UInt8) :
    (sendPacket b seq [.datagram (filling last)]).2 =
      .waiting (Waiting.first.receive (filling last)) := by
  have long : 4 ≤ (filling last).length := by
    rw [length_filling]
    decide
  have kept : ¬ min (filling last).length 256 < 4 := by
    rw [length_filling]
    decide
  have opcode : uint16 (slice (Waiting.first.receive (filling last)).recv 0 2) = 257 :=
    (receive_header Waiting.first long).1.trans rfl
  have notAck : ¬ (257 : UInt16) = 4 := by decide
  have notError : ¬ (257 : UInt16) = 5 := by decide
  simp only [sendPacket, sendPacketFrom, sendPacketRead, if_neg kept, opcode, if_neg notAck,
    if_neg notError]

theorem drop_recv_filling {last : UInt8} {e : Bytes} (long : 4 ≤ e.length)
    (short : e.length < 256) :
    ((Waiting.first.receive (filling last)).receive e).recv.drop 4 =
      keptText e ++ List.replicate (255 - e.length) 1 ++ [last] := by
  have full : (Waiting.first.receive (filling last)).recv = filling last := by
    have nothing : Waiting.first.recv.drop (filling last).length = [] := by
      rw [length_filling]
      exact List.drop_eq_nil_of_le (Nat.le_of_eq Waiting.first.recv_size)
    rw [recv_receive, nothing, List.append_nil]
    exact List.take_of_length_le (Nat.le_of_eq (length_filling last))
  have behind : e.length ≤ (List.replicate 255 (1 : UInt8)).length := by
    rw [List.length_replicate]
    omega
  rw [drop_recv_receive _ long, full, filling, List.drop_append_of_le_length behind,
    List.drop_replicate, List.append_assoc]

/-- A text that does not end is continued by what the array holds: up to a NUL, if there is one,
and otherwise nothing at all is reported. -/
theorem abortText_filling {e : Bytes} (long : 4 ≤ e.length) (short : e.length < 256)
    (noNul : 0 ∉ keptText e) :
    abortText ((Waiting.first.receive (filling 0)).receive e).recv =
        keptText e ++ List.replicate (255 - e.length) 1 ∧
      abortText ((Waiting.first.receive (filling 1)).receive e).recv = [] := by
  have noNul' : 0 ∉ keptText e ++ List.replicate (255 - e.length) 1 := by
    rw [List.mem_append, not_or]
    refine ⟨noNul, fun member => ?_⟩
    exact absurd (List.eq_of_mem_replicate member) (by decide)
  constructor
  · rw [abortText, drop_recv_filling long short, nullStr_append [] noNul']
    rfl
  · have unended : (0 : UInt8) ∉ keptText e ++ List.replicate (255 - e.length) 1 ++ [1] := by
      rw [List.mem_append, not_or]
      exact ⟨noNul', by decide⟩
    rw [abortText, drop_recv_filling long short, nullStr_eq_none_iff.mpr unended]
    rfl

/-! ## Two runs -/

/-- However two runs of `sendPacket` come to the ERROR datagram, both return the same error, with
a text that is part of the datagram; for one that `mkError` makes it is the text it was made of. -/
def ReportsOwnText (e : Bytes) : Prop :=
  ∀ (b : Bytes) (seq : UInt16) (pre pre' : List ReadOutcome) (w w' : Waiting),
    (sendPacket b seq pre).2 = .waiting w → (sendPacket b seq pre').2 = .waiting w' →
    ∃ text, text <:+: e ∧
      (∀ s, e = mkError s → (0 : UInt8) ∉ s → s.length ≤ 251 → text = s) ∧
      (sendPacket b seq (pre ++ [.datagram e])).2 = .returned (some (.clientAborted text)) [] ∧
      (sendPacket b seq (pre' ++ [.datagram e])).2 = .returned (some (.clientAborted text)) []

/-- The report is about the ERROR datagram alone if and only if its text has a NUL in the part
that is kept, or the datagram fills the array. -/
theorem sendPacket_reportsOwnText_iff (e : Bytes) (abort : IsAbort e) :
    ReportsOwnText e ↔ (0 : UInt8) ∈ (e.drop 4).take 252 ∨ 256 ≤ e.length := by
  constructor
  · intro reports
    by_contra neither
    obtain ⟨noNul, short⟩ := not_or.mp neither
    obtain ⟨continued, dropped⟩ := abortText_filling abort.1 (by omega) noNul
    obtain ⟨text, _, _, first, second⟩ := reports [] 0 _ _ _ _ (sendPacket_filling [] 0 0)
      (sendPacket_filling [] 0 1)
    rw [sendPacket_abort [] abort (sendPacket_filling [] 0 0), continued] at first
    rw [sendPacket_abort [] abort (sendPacket_filling [] 0 1), dropped] at second
    -- one run reports 251 bytes and the other one none
    have lengths : (keptText e ++ List.replicate (255 - e.length) (1 : UInt8)).length = 251 := by
      have := abort.1
      rw [keptText, List.length_append, List.length_take, List.length_drop, List.length_replicate]
      omega
    cases second
    injection first with same
    injection same with same
    injection same with same
    rw [same] at lengths
    cases lengths
  · intro ends b seq pre pre' w w' waits waits'
    refine ⟨ownText e, ownText_infix e, ?_, ?_, ?_⟩
    · rintro s rfl noNul fits
      exact ownText_mkError noNul fits
    · rw [sendPacket_abort b abort waits, abortText_receive w abort.1 ends]
    · rw [sendPacket_abort b abort waits', abortText_receive w' abort.1 ends]

/-- An ERROR packet like those the server itself writes. -/
theorem sendPacket_reportsOwnText_terminated :
    IsAbort (mkError (ascii "disk full")) ∧ ReportsOwnText (mkError (ascii "disk full")) :=
  ⟨by decide, (sendPacket_reportsOwnText_iff _ (by decide)).mpr (Or.inl (by decide))⟩

/-- The text `A` without a NUL is reported as such to begin with, and as nothing after a
datagram without any NUL. -/
theorem sendPacket_reports_leftovers :
    (sendPacket [] 0 [.datagram [0, 5, 0, 0, 65]]).2 =
        .returned (some (.clientAborted [65])) [] ∧
      (sendPacket [] 0 [.datagram (filling 1), .datagram [0, 5, 0, 0, 65]]).2 =
        .returned (some (.clientAborted [])) [] ∧
      ¬ ReportsOwnText [0, 5, 0, 0, 65] := by
  have abort : IsAbort [0, 5, 0, 0, 65] := by decide
  have atFirst : (sendPacket [] 0 []).2 = .waiting Waiting.first := rfl
  have first : (sendPacket [] 0 [.datagram [0, 5, 0, 0, 65]]).2 =
      .returned (some (.clientAborted [65])) [] := by
    rw [← List.nil_append [ReadOutcome.datagram [0, 5, 0, 0, 65]],
      sendPacket_abort [] abort atFirst, abortText_first abort.1 (by decide) (by decide)]
    rfl
  have second : (sendPacket [] 0 ([.datagram (filling 1)] ++ [.datagram [0, 5, 0, 0, 65]])).2 =
      .returned (some (.clientAborted [])) [] := by
    rw [sendPacket_abort [] abort (sendPacket_filling [] 0 1),
      (abortText_filling abort.1 (by decide) (by decide)).2]
  refine ⟨first, second, ?_⟩
  intro reports
  obtain ⟨text, _, _, first', second'⟩ := reports [] 0 [] _ _ _ atFirst (sendPacket_filling [] 0 1)
  cases second.symm.trans second'
  cases first.symm.trans first'

end Pixiecore.Tftp
