import Pixiecore.Tftp.Proofs.Step

/-!
# Transmit discipline

Against any peer, what a transfer does on its socket falls into segments, one for each
packet in turn. In a segment the packet is written once, and again after every timeout
but the fifth; the next segment starts only when the packet has been acknowledged. After
an abort, a read error or a fifth timeout nothing more happens.
-/

namespace Pixiecore.Tftp

/-! ## The discipline -/

/-- The number of timeouts among some events. -/
def timeouts (es : List Event) : Nat := es.count (.read .timeout)

/-- A write directly after `e` is a retransmission, and follows a timeout. -/
def Retransmits (e e' : Event) : Prop := (∃ q, e' = .write q) → e = .read .timeout

/-- A segment: packet `p` is written `r` times, `1 ≤ r ≤ 5`, each time but the first directly
after a timeout. There is one copy more than there are timeouts, unless the fifth timeout
ended the transfer. -/
structure Sends (p : Bytes) (seg : List Event) : Prop where
  first : seg.head? = some (.write p)
  copies : ∃ r, writes seg = List.replicate r p ∧ 1 ≤ r ∧ r ≤ 5 ∧
    (r = timeouts seg + 1 ∨
      r = 5 ∧ timeouts seg = 5 ∧ seg.getLast? = some (.read .timeout))
  retransmits : seg.IsChain Retransmits

/-- The last thing in a segment is that packet `seq` is acknowledged. -/
def EndsAcked (seq : UInt16) (seg : List Event) : Prop :=
  ∃ front d, seg = front ++ [.read (.datagram d)] ∧ IsAck d seq

/-- What may happen on the socket from the first transmission of packet `i` on: nothing, one
ERROR packet, a segment for packet `i` that is the last, or one that ends with its
acknowledgement and what may happen after it. -/
inductive Disciplined (req : Rrq) (file : Reader) : Nat → List Event → Prop
  | done {i : Nat} : Disciplined req file i []
  | error {i : Nat} : Disciplined req file i [.write (mkError file.final.text)]
  | last {i : Nat} {seg : List Event} (inside : (i - 1) * req.bsize ≤ file.content.length)
      (sends : Sends (packetNo req file.content i) seg) : Disciplined req file i seg
  | next {i : Nat} {seg es : List Event} (inside : (i - 1) * req.bsize ≤ file.content.length)
      (sends : Sends (packetNo req file.content i) seg)
      (acked : EndsAcked (UInt16.ofNat i) seg) (rest : Disciplined req file (i + 1) es) :
      Disciplined req file i (seg ++ es)

/-- The client aborted, or the socket failed. -/
def Stops : Event → Prop
  | .read (.datagram d) => IsAbort d
  | .read (.failed _) => True
  | _ => False

/-! ## Segments -/

/-- The rest of a segment in which `t` timeouts have been seen already. -/
structure SendsFrom (p : Bytes) (t : Nat) (seg : List Event) : Prop where
  reads : ∀ q, seg.head? ≠ some (.write q)
  copies : ∃ r, writes seg = List.replicate r p ∧ t + r ≤ 4 ∧
    (r = timeouts seg ∨
      t + r = 4 ∧ timeouts seg = r + 1 ∧ seg.getLast? = some (.read .timeout))
  retransmits : seg.IsChain Retransmits

theorem timeouts_read {o : ReadOutcome} (h : o ≠ .timeout) (es : List Event) :
    timeouts (.read o :: es) = timeouts es := by
  have other : Event.read o ≠ .read .timeout := fun e => h (Event.read.inj e)
  rw [timeouts, List.count_cons_of_ne other]
  rfl

theorem timeouts_timeout (es : List Event) :
    timeouts (.read .timeout :: es) = timeouts es + 1 := List.count_cons_self

theorem timeouts_write (p : Bytes) (es : List Event) :
    timeouts (.write p :: es) = timeouts es :=
  List.count_cons_of_ne (b := Event.write p) (a := Event.read .timeout) (by simp)

theorem isChain_read {e : Event} {seg : List Event} (chain : seg.IsChain Retransmits)
    (reads : ∀ q, seg.head? ≠ some (.write q)) : (e :: seg).IsChain Retransmits := by
  cases seg with
  | nil => exact List.IsChain.singleton e
  | cons e' seg =>
    refine List.IsChain.cons_cons ?_ chain
    rintro ⟨q, rfl⟩
    exact absurd rfl (reads q)

theorem getLast?_cons_of_some {α : Type} {a b : α} {l : List α} (h : l.getLast? = some b) :
    (a :: l).getLast? = some b := by
  rw [List.getLast?_cons, h]
  rfl

namespace SendsFrom

variable {p : Bytes} {t : Nat} {seg : List Event}

theorem nil (h : t ≤ 4) : SendsFrom p t [] :=
  ⟨by simp, ⟨0, rfl, h, Or.inl rfl⟩, List.IsChain.nil⟩

/-- A read that is not a timeout changes nothing. -/
theorem read {o : ReadOutcome} (h : o ≠ .timeout) (tail : SendsFrom p t seg) :
    SendsFrom p t (.read o :: seg) := by
  obtain ⟨r, written, bound, count⟩ := tail.copies
  refine ⟨by simp, ⟨r, written, bound, ?_⟩, isChain_read tail.retransmits tail.reads⟩
  rw [timeouts_read h]
  rcases count with count | ⟨full, count, last⟩
  · exact Or.inl count
  · exact Or.inr ⟨full, count, getLast?_cons_of_some last⟩

/-- A timeout brings another copy. -/
theorem retry (tail : SendsFrom p (t + 1) seg) :
    SendsFrom p t (.read .timeout :: .write p :: seg) := by
  obtain ⟨r, written, bound, count⟩ := tail.copies
  refine ⟨by simp, ⟨r + 1, ?_, by omega, ?_⟩, ?_⟩
  · rw [writes_read, writes_write, written, List.replicate_succ]
  · rw [timeouts_timeout, timeouts_write]
    rcases count with count | ⟨full, count, last⟩
    · exact Or.inl (by omega)
    · exact Or.inr ⟨by omega, by omega, getLast?_cons_of_some (getLast?_cons_of_some last)⟩
  · exact List.IsChain.cons_cons (fun _ => rfl) (isChain_read tail.retransmits tail.reads)

/-- The fifth timeout brings none. -/
theorem giveUp (h : t = 4) : SendsFrom p t [.read .timeout] :=
  ⟨by simp, ⟨0, rfl, by omega, Or.inr ⟨by omega, rfl, rfl⟩⟩, List.IsChain.singleton _⟩

theorem sends (tail : SendsFrom p 0 seg) : Sends p (.write p :: seg) := by
  obtain ⟨r, written, bound, count⟩ := tail.copies
  refine ⟨rfl, ⟨r + 1, ?_, by omega, by omega, ?_⟩, isChain_read tail.retransmits tail.reads⟩
  · rw [writes_write, written, List.replicate_succ]
  · rw [timeouts_write]
    rcases count with count | ⟨full, count, last⟩
    · exact Or.inl (by omega)
    · exact Or.inr ⟨by omega, by omega, getLast?_cons_of_some last⟩

end SendsFrom

/-! ## The run -/

section Run

variable {req : Rrq} {file : Reader}

/-- The events from the middle of sending packet `i` on: the rest of its segment and, if it was
acknowledged, what follows. -/
def Continues (req : Rrq) (file : Reader) (i t : Nat) (es : List Event) : Prop :=
  ∃ tail rest, es = tail ++ rest ∧ SendsFrom (packetNo req file.content i) t tail ∧
    (rest = [] ∨ EndsAcked (UInt16.ofNat i) tail ∧ Disciplined req file (i + 1) rest)

theorem Continues.disciplined {i : Nat} {es : List Event} (h : Continues req file i 0 es)
    (inside : (i - 1) * req.bsize ≤ file.content.length) :
    Disciplined req file i (.write (packetNo req file.content i) :: es) := by
  obtain ⟨tail, rest, rfl, sends, rfl | ⟨⟨front, d, rfl, ack⟩, after⟩⟩ := h
  · rw [List.append_nil]
    exact Disciplined.last inside sends.sends
  · exact Disciplined.next inside sends.sends ⟨_ :: front, d, rfl, ack⟩ after

/-- A read that is not a timeout, put before the rest of a segment. -/
theorem Continues.read {i t : Nat} {es : List Event} {o : ReadOutcome} (h : o ≠ .timeout)
    (continues : Continues req file i t es) : Continues req file i t (.read o :: es) := by
  obtain ⟨tail, rest, rfl, sends, after⟩ := continues
  refine ⟨.read o :: tail, rest, rfl, sends.read h, ?_⟩
  rcases after with ended | ⟨⟨front, d, rfl, ack⟩, after⟩
  · exact Or.inl ended
  · exact Or.inr ⟨⟨.read o :: front, d, rfl, ack⟩, after⟩

/-- A timeout and the retransmission, put before the rest of a segment. -/
theorem Continues.retry {i t : Nat} {es : List Event}
    (continues : Continues req file i (t + 1) es) :
    Continues req file i t
      (.read .timeout :: .write (packetNo req file.content i) :: es) := by
  obtain ⟨tail, rest, rfl, sends, after⟩ := continues
  refine ⟨.read .timeout :: .write _ :: tail, rest, rfl, sends.retry, ?_⟩
  rcases after with ended | ⟨⟨front, d, rfl, ack⟩, after⟩
  · exact Or.inl ended
  · exact Or.inr ⟨⟨.read .timeout :: .write _ :: front, d, rfl, ack⟩, after⟩

/-- What follows an acknowledged packet is disciplined if sending the next one is. -/
theorem disciplined_of_next {i : Nat} {r : State req.bsize × List Bytes} {os : List ReadOutcome}
    (next : Next req file i r)
    (sending : ∀ ph, SendingNo req file (i + 1) ph →
      Continues req file (i + 1) 0 (run req (.sending ph .first) os).1) :
    Disciplined req file (i + 1) (r.2.map .write ++ (run req r.1 os).1) := by
  cases next with
  | block blk h left => exact (sending _ h).disciplined h.inside
  | error =>
    rw [run_returned]
    exact Disciplined.error
  | done =>
    rw [run_returned]
    exact Disciplined.done

/-- The run from any state in which packet `i` is being sent. -/
theorem continues_run {i : Nat} {ph : Phase req.bsize} (w : Waiting) (os : List ReadOutcome)
    (h : SendingNo req file i ph) :
    Continues req file i w.tries (run req (.sending ph w) os).1 := by
  induction os generalizing i ph w with
  | nil =>
    have := w.tries_lt
    exact ⟨[], [], rfl, SendsFrom.nil (by unfold numRetries at this; omega), Or.inl rfl⟩
  | cons o os ih =>
    have bound : w.tries ≤ 4 := Nat.le_of_lt_succ w.tries_lt
    rw [run_sending]
    rcases resume_cases req ph w o with
      ⟨d, rfl, ack, e⟩ | ⟨w', ignored, same, e⟩ | ⟨w', rfl, more, e⟩ | ⟨err, aborts, e⟩
    · rw [e]
      rw [h.seq] at ack
      refine ⟨[.read (.datagram d)], _, rfl, (SendsFrom.nil bound).read (by simp), ?_⟩
      refine Or.inr ⟨⟨[], d, rfl, ack⟩, ?_⟩
      exact disciplined_of_next (next_afterAck h) (fun ph' h' => ih .first h')
    · rw [e]
      have rest := ih w' h
      rw [same] at rest
      refine rest.read ?_
      rintro rfl
      exact ignored
    · rw [e, h.packet]
      have rest := ih w' h
      rw [more] at rest
      exact rest.retry
    · rw [e, run_returned]
      refine ⟨[.read o], [], rfl, ?_, Or.inl rfl⟩
      cases o with
      | timeout => exact SendsFrom.giveUp (Nat.succ.inj aborts)
      | datagram d => exact (SendsFrom.nil bound).read (by simp)
      | failed text => exact (SendsFrom.nil bound).read (by simp)

theorem stops_writes (ws : List Bytes) {es : List Event}
    (h : es.Pairwise (fun e _ => ¬ Stops e)) :
    (ws.map Event.write ++ es).Pairwise (fun e _ => ¬ Stops e) := by
  induction ws with
  | nil => exact h
  | cons p ws ih => exact List.Pairwise.cons (fun _ _ => id) ih

theorem resume_of_stops (ph : Phase req.bsize) (w : Waiting) {o : ReadOutcome}
    (stops : Stops (.read o)) :
    ∃ err, resume req (.sending ph w) o = (.returned (.failed err), []) := by
  rcases resume_cases req ph w o with
    ⟨d, rfl, ack, _⟩ | ⟨_, ignored, _, _⟩ | ⟨_, rfl, _, _⟩ | ⟨err, _, e⟩
  · exact absurd (ack.2.1.symm.trans stops.2) (by decide)
  · cases o with
    | datagram d => exact absurd stops ignored.2
    | timeout => exact absurd stops id
    | failed text => exact absurd ignored id
  · exact absurd stops id
  · exact ⟨err, e⟩

/-- Nothing happens after an abort or a read error. -/
theorem stops_run (s : State req.bsize) (os : List ReadOutcome) :
    (run req s os).1.Pairwise (fun e _ => ¬ Stops e) := by
  induction os generalizing s with
  | nil =>
    cases s with
    | sending ph w => exact List.Pairwise.nil
    | returned res => exact List.Pairwise.nil
  | cons o os ih =>
    cases s with
    | returned res => exact List.Pairwise.nil
    | sending ph w =>
      rw [run_sending]
      refine List.Pairwise.cons ?_ (stops_writes _ (ih _))
      intro e later stops
      obtain ⟨err, ended⟩ := resume_of_stops ph w stops
      rw [ended, run_returned] at later
      cases later

end Run

/-- A transfer begins with its first packet, the OACK or block 1. Only without an OACK can the file
fail before that. -/
theorem transfer_begins (req : Rrq) {addr : Bytes} {handler : Handler} {file : Reader}
    (os : List ReadOutcome) (opened : handler req.filename addr = .ok file) :
    (∃ es, (transfer req (.ok ()) addr handler os).1 =
      .write (packetNo req file.content (firstNo req)) :: es) ∨
    ¬ req.blockSize > 0 ∧
      (transfer req (.ok ()) addr handler os).1 = [.write (mkError file.final.text)] := by
  rcases transferStart_cases req opened with ⟨_, first, start⟩ | ⟨first, next⟩
  · simp only [transfer, start, first]
    exact .inl ⟨_, rfl⟩
  · have plain : ¬ req.blockSize > 0 := by
      intro negotiated
      rw [firstNo, if_pos negotiated] at first
      cases first
    rw [first, transfer]
    generalize transferStart req (.ok ()) addr handler = r at next
    cases next with
    | block blk h left => exact .inl ⟨_, rfl⟩
    | error =>
      simp only [run_returned]
      exact .inr ⟨plain, rfl⟩
    | done pos => exact absurd pos (by decide)

/-- What a transfer does on its socket once the handler has succeeded, whatever the peer does. -/
theorem transfer_disciplined (req : Rrq) (addr : Bytes) (handler : Handler) (file : Reader)
    (os : List ReadOutcome) (opened : handler req.filename addr = .ok file) :
    Disciplined req file (firstNo req) (transfer req (.ok ()) addr handler os).1 ∧
      ((∃ es, (transfer req (.ok ()) addr handler os).1 =
          .write (packetNo req file.content (firstNo req)) :: es) ∨
        ¬ req.blockSize > 0 ∧
          (transfer req (.ok ()) addr handler os).1 = [.write (mkError file.final.text)]) ∧
      (transfer req (.ok ()) addr handler os).1.Pairwise (fun e _ => ¬ Stops e) := by
  refine ⟨?_, transfer_begins req os opened, stops_writes _ (stops_run _ _)⟩
  rcases transferStart_cases req opened with ⟨sending, first, start⟩ | ⟨first, next⟩
  · simp only [transfer, start, first]
    exact (continues_run .first os sending).disciplined sending.inside
  · rw [first]
    exact disciplined_of_next next (fun ph h => continues_run .first os h)

/-- A stale ACK, a timeout, and an abort: the first block is sent twice, and then nothing more. -/
theorem transfer_disciplined_sample :
    (transfer ⟨ascii "f", 0⟩ (.ok ()) (ascii "10.0.0.2:2000") (blob (ascii "abc"))
      [.datagram [0, 4, 0, 7], .timeout, .datagram [0, 5, 0, 0, 0], .timeout]).1 =
      [.write ([0, 3, 0, 1] ++ ascii "abc"), .read (.datagram [0, 4, 0, 7]), .read .timeout,
        .write ([0, 3, 0, 1] ++ ascii "abc"), .read (.datagram [0, 5, 0, 0, 0])] ∧
    Disciplined ⟨ascii "f", 0⟩ ⟨ascii "abc", .eof⟩ 1
      (transfer ⟨ascii "f", 0⟩ (.ok ()) (ascii "10.0.0.2:2000") (blob (ascii "abc"))
        [.datagram [0, 4, 0, 7], .timeout, .datagram [0, 5, 0, 0, 0], .timeout]).1 :=
  ⟨by decide +kernel, (transfer_disciplined ⟨ascii "f", 0⟩ (ascii "10.0.0.2:2000")
    (blob (ascii "abc")) ⟨ascii "abc", .eof⟩ _ rfl).1⟩

end Pixiecore.Tftp
