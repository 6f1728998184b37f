import Pixiecore.Tftp.Proofs.Delivery

/-!
# When a transfer succeeds

`transfer_sent_iff` says for every peer whether a transfer reaches its success branch: each
packet must be acknowledged in turn, with at most four timeouts before that and with nothing
that aborts. A peer that answers one of the five copies of each packet gets the file.
-/

namespace Pixiecore.Tftp

/-- In the given reads, `n` packets from number `i` on are acknowledged one after the other. Before
each acknowledgement there are only datagrams that are passed over, and at most four timeouts. -/
inductive AllAcked : Nat → Nat → List ReadOutcome → Prop
  | done {i : Nat} {rest : List ReadOutcome} : AllAcked 0 i rest
  | next {n i : Nat} {front rest : List ReadOutcome} {d : Bytes}
      (others : ∀ o ∈ front, Ignored (UInt16.ofNat i) o ∨ o = .timeout)
      (patience : front.count .timeout ≤ 4) (ack : IsAck d (UInt16.ofNat i))
      (later : AllAcked n (i + 1) rest) : AllAcked (n + 1) i (front ++ .datagram d :: rest)

/-! ## One packet -/

/-- With `t` timeouts already seen, the packet is acknowledged, and what follows satisfies `Q`. -/
def AckedThen (seq : UInt16) (t : Nat) (Q : List ReadOutcome → Prop) (os : List ReadOutcome) :
    Prop :=
  ∃ front d rest, os = front ++ .datagram d :: rest ∧
    (∀ o ∈ front, Ignored seq o ∨ o = .timeout) ∧ t + front.count .timeout ≤ 4 ∧
    IsAck d seq ∧ Q rest

section Packet

variable {seq : UInt16} {t : Nat} {Q : List ReadOutcome → Prop}

theorem not_ackedThen_nil : ¬ AckedThen seq t Q [] := by
  rintro ⟨front, d, rest, split, _⟩
  simp at split

/-- The first read is the acknowledgement, or is passed over, or is a timeout. -/
theorem ackedThen_cons {o : ReadOutcome} {os : List ReadOutcome} (few : t ≤ 4) :
    AckedThen seq t Q (o :: os) ↔
      (∃ d, o = .datagram d ∧ IsAck d seq ∧ Q os) ∨
      (Ignored seq o ∧ AckedThen seq t Q os) ∨ (o = .timeout ∧ AckedThen seq (t + 1) Q os) := by
  constructor
  · rintro ⟨front, d, rest, split, others, patience, ack, after⟩
    cases front with
    | nil =>
      obtain ⟨rfl, rfl⟩ := List.cons.inj split
      exact Or.inl ⟨d, rfl, ack, after⟩
    | cons o' front =>
      obtain ⟨rfl, rfl⟩ := List.cons.inj split
      obtain ⟨first, later⟩ := List.forall_mem_cons.mp others
      rcases first with ignored | rfl
      · have notTimeout : o ≠ .timeout := by
          rintro rfl
          exact ignored
        rw [List.count_cons_of_ne notTimeout] at patience
        exact Or.inr (Or.inl ⟨ignored, front, d, rest, rfl, later, patience, ack, after⟩)
      · rw [List.count_cons_self] at patience
        exact Or.inr (Or.inr ⟨rfl, front, d, rest, rfl, later, by omega, ack, after⟩)
  · rintro (⟨d, rfl, ack, after⟩ | ⟨ignored, front, d, rest, rfl, others, patience, ack, after⟩ |
      ⟨rfl, front, d, rest, rfl, others, patience, ack, after⟩)
    · exact ⟨[], d, os, rfl, fun _ h => absurd h List.not_mem_nil, few, ack, after⟩
    · have notTimeout : o ≠ .timeout := by
        rintro rfl
        exact ignored
      refine ⟨o :: front, d, rest, rfl, List.forall_mem_cons.mpr ⟨Or.inl ignored, others⟩, ?_, ack,
        after⟩
      rwa [List.count_cons_of_ne notTimeout]
    · refine ⟨.timeout :: front, d, rest, rfl, List.forall_mem_cons.mpr ⟨Or.inr rfl, others⟩, ?_,
        ack, after⟩
      rw [List.count_cons_self]
      omega

theorem not_ackedThen_of_aborts {o : ReadOutcome} {os : List ReadOutcome} (few : t ≤ 4)
    (aborts : Aborts t o) : ¬ AckedThen seq t Q (o :: os) := by
  rw [ackedThen_cons few]
  rintro (⟨d, rfl, ack, _⟩ | ⟨ignored, _⟩ | ⟨rfl, front, d, rest, _, _, patience, _⟩)
  · exact absurd (ack.2.1.symm.trans aborts.2) (by decide)
  · cases o with
    | datagram d => exact ignored.2 aborts
    | timeout => exact ignored
    | failed text => exact ignored
  · have last : t + 1 = numRetries := aborts
    unfold numRetries at last
    omega

/-- The first packet is acknowledged, and then all the others. -/
theorem ackedThen_allAcked {n i : Nat} {P : Prop}
    (rest : ∀ os, Q os ↔ P ∧ AllAcked n (i + 1) os) (os : List ReadOutcome) :
    AckedThen (UInt16.ofNat i) 0 Q os ↔ P ∧ AllAcked (n + 1) i os := by
  constructor
  · rintro ⟨front, d, tail, rfl, others, patience, ack, after⟩
    obtain ⟨holds, later⟩ := (rest tail).mp after
    exact ⟨holds, AllAcked.next others (by omega) ack later⟩
  · rintro ⟨holds, acked⟩
    cases acked with
    | next others patience ack later =>
      exact ⟨_, _, _, rfl, others, by omega, ack, (rest _).mpr ⟨holds, later⟩⟩

end Packet

section Run

variable {req : Rrq}

/-- While a packet is being sent, the transfer succeeds exactly if the packet is acknowledged in
time and the rest succeeds. -/
theorem run_sending_sent_iff (ph : Phase req.bsize) (w : Waiting) (os : List ReadOutcome) :
    (run req (.sending ph w) os).2 = .returned .sent ↔
      AckedThen ph.seq w.tries
        (fun rest => (run req (afterAck req ph).1 rest).2 = .returned .sent) os := by
  have few : w.tries ≤ 4 := Nat.le_of_lt_succ w.tries_lt
  induction os generalizing w with
  | nil => exact iff_of_false (by simp [run]) not_ackedThen_nil
  | cons o os ih =>
    rw [run_sending]
    rcases resume_cases req ph w o with
      ⟨d, rfl, ack, e⟩ | ⟨w', ignored, same, e⟩ | ⟨w', rfl, more, e⟩ | ⟨err, aborts, e⟩
    · rw [e, ackedThen_cons few]
      constructor
      · exact fun sent => Or.inl ⟨d, rfl, ack, sent⟩
      · rintro (⟨_, _, _, sent⟩ | ⟨ignored, _⟩ | ⟨⟨⟩, _⟩)
        · exact sent
        · exact absurd ack ignored.1
    · have rest := ih w' (by omega)
      rw [same] at rest
      rw [e, ackedThen_cons few]
      refine rest.trans ?_
      constructor
      · exact fun later => Or.inr (Or.inl ⟨ignored, later⟩)
      · rintro (⟨d, rfl, ack, _⟩ | ⟨_, later⟩ | ⟨rfl, _⟩)
        · exact absurd ack ignored.1
        · exact later
        · exact absurd ignored id
    · have rest := ih w' (Nat.le_of_lt_succ w'.tries_lt)
      rw [more] at rest
      rw [e, ackedThen_cons few]
      refine rest.trans ?_
      constructor
      · exact fun later => Or.inr (Or.inr ⟨rfl, later⟩)
      · rintro (⟨_, ⟨⟩, _⟩ | ⟨ignored, _⟩ | ⟨_, later⟩)
        · exact absurd ignored id
        · exact later
    · rw [e, run_returned]
      exact iff_of_false (by simp) (not_ackedThen_of_aborts few aborts)

/-- The same from the end of packet `i` on, for all the packets that are left. -/
theorem run_next_sent_iff {content : Bytes} {i : Nat} {r : State req.bsize × List Bytes}
    (n : Nat) (os : List ReadOutcome) (next : Next req ⟨content, .eof⟩ i r)
    (count : i + n = fullOrPartial content req.bsize) :
    (run req r.1 os).2 = .returned .sent ↔
      content.length % req.bsize ≠ 0 ∧ AllAcked n (i + 1) os := by
  induction n generalizing i r os with
  | zero =>
    rcases next_cases next (by omega) with ⟨blk, more, _⟩ | ⟨_, rfl⟩
    · omega
    · unfold ending
      split
      · rename_i whole
        simp [whole]
      · rename_i partly
        simp [partly, AllAcked.done]
  | succ n ih =>
    rcases next_cases next (by omega) with ⟨blk, more, sending, rfl⟩ | ⟨last, _⟩
    · rw [run_sending_sent_iff, sending.seq]
      exact ackedThen_allAcked (fun os => ih os (next_afterAck sending) (by omega)) os
    · omega

end Run

/-- The number of packets of a transfer. -/
def packets (req : Rrq) (content : Bytes) : Nat :=
  fullOrPartial content req.bsize + 1 - firstNo req

/-- Against any peer, a transfer succeeds if and only if the length of the file is no multiple of
the block size and each packet in turn, the OACK included, is acknowledged before its fifth timeout,
an abort or a read error. -/
theorem transfer_sent_iff (req : Rrq) (addr content : Bytes) (handler : Handler)
    (os : List ReadOutcome) (opened : handler req.filename addr = .ok ⟨content, .eof⟩) :
    (transfer req (.ok ()) addr handler os).2 = .returned .sent ↔
      content.length % req.bsize ≠ 0 ∧
        AllAcked (packets req content) (firstNo req) os := by
  unfold packets
  rcases transferStart_cases req opened with ⟨sending, first, start⟩ | ⟨first, next⟩
  · simp only [transfer, start, first, Nat.sub_zero]
    rw [run_sending_sent_iff, sending.seq]
    exact ackedThen_allAcked (fun os => run_next_sent_iff (fullOrPartial content req.bsize) os
      (next_afterAck sending) (Nat.zero_add _)) os
  · rw [first, Nat.add_sub_cancel]
    exact run_next_sent_iff _ os next (Nat.zero_add _)

/-- Four copies of the block or of its acknowledgement are lost, and a stale acknowledgement arrives
in between. -/
theorem transfer_sent_fourLosses :
    (transfer ⟨ascii "f", 0⟩ (.ok ()) (ascii "10.0.0.2:2000") (blob (ascii "abc"))
      [.timeout, .timeout, .datagram [0, 4, 0, 7], .timeout, .timeout,
        .datagram [0, 4, 0, 1]]).2 = .returned .sent := by
  refine (transfer_sent_iff ⟨ascii "f", 0⟩ (ascii "10.0.0.2:2000") (ascii "abc")
    (blob (ascii "abc")) _ rfl).mpr ⟨by decide, ?_⟩
  show AllAcked (0 + 1) 1 ([.timeout, .timeout, .datagram [0, 4, 0, 7], .timeout, .timeout] ++
    .datagram [0, 4, 0, 1] :: [])
  refine AllAcked.next ?_ (by decide) (by decide) AllAcked.done
  simp [Ignored, IsAck, IsAbort, uint16]

end Pixiecore.Tftp
