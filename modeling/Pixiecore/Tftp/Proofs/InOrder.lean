import Pixiecore.Tftp.InOrder
import Pixiecore.Tftp.Proofs.Agreement
import Pixiecore.Tftp.Proofs.Delivery

/-!
# Agreement for files of any size

The server and the rolling client, over a line that keeps the order of datagrams, are
simulated by stop-and-wait over queues. The numbers that meet there are neighbours, so sixteen bits
tell them apart, however many blocks the file has.
-/

namespace Pixiecore.Tftp

open Relation InOrder

/-- Where the server is in the file, given the packet being sent. -/
def ServerNo (req : Rrq) (content : Bytes) (cur : Nat) : State req.bsize → Prop
  | .sending ph _ => SendingNo req ⟨content, .eof⟩ cur ph
  | .returned .sent => content.length < (cur - 1) * req.bsize
  | .returned _ => True

/-- The client and the acknowledgements on their way are as the queues say. -/
structure Queued (req : Rrq) (content : Bytes) (client : RollingClient) (toServer : List Bytes)
    (c : Config) : Prop where
  toServer : toServer = c.acks.map (fun i => ackPacket (UInt16.ofNat i))
  next : client.next = UInt16.ofNat (max 1 c.got)
  accepted : client.accepted = content.take ((c.got - 1) * req.bsize)

/-- The line is in a state that the queues describe. An ERROR packet can only come at the end, when
the server has returned. -/
structure Follows (req : Rrq) (content : Bytes) (line : Line req) (c : Config) : Prop where
  server : ServerNo req content c.cur line.server
  toClient : ∃ errors, line.toClient = c.data.map (packetNo req content) ++ errors ∧
    (∀ p ∈ errors, uint16 p = 5) ∧ (errors ≠ [] → ∃ res, line.server = .returned res)
  queued : Queued req content line.client line.toServer c

/-- Neighbouring numbers are different, and their successors follow. -/
theorem ofNat_succ_ne (i : Nat) : UInt16.ofNat (i + 1) ≠ UInt16.ofNat i := by
  intro same
  have numbers := congrArg UInt16.toNat same
  rw [UInt16.toNat_ofNat', UInt16.toNat_ofNat'] at numbers
  omega

theorem ofNat_succ (i : Nat) : UInt16.ofNat (i + 1) = UInt16.ofNat i + 1 := by
  rw [UInt16.ofNat_add]
  rfl

/-! ## The server's side -/

section Server

variable {req : Rrq} {content : Bytes} {c : Config}

/-- Whatever the server goes on to after packet `i` is a transmission, or nothing. -/
theorem follows_next {i : Nat} {r : State req.bsize × List Bytes} {client : RollingClient}
    {toClient toServer : List Bytes} (next : Next req ⟨content, .eof⟩ i r) (here : c.cur = i + 1)
    (sent : toClient = c.data.map (packetNo req content))
    (queued : Queued req content client toServer c) :
    ∃ c', ReflTransGen Step c c' ∧
      Follows req content ⟨r.1, client, toClient ++ r.2, toServer⟩ c' := by
  cases next with
  | block blk h left =>
    refine ⟨_, ReflTransGen.single (Step.transmit c), ?_, ⟨[], ?_, by simp, by simp⟩,
      ⟨queued.toServer, queued.next, queued.accepted⟩⟩
    · rwa [← here] at h
    · rw [sent, here, List.map_append, List.append_nil]
      rfl
  | error =>
    refine ⟨c, ReflTransGen.refl, trivial, ⟨_, by rw [sent], ?_, fun _ => ⟨_, rfl⟩⟩, queued⟩
    intro p member
    rw [List.mem_singleton.mp member]
    exact uint16_mkError _
  | done one inside short =>
    refine ⟨c, ReflTransGen.refl, ?_, ⟨[], by rw [sent], by simp, by simp⟩, queued⟩
    rw [here]
    exact short

/-- While the server is sending there is no ERROR packet. -/
theorem Follows.sent {line : Line req} (follows : Follows req content line c)
    {ph : Phase req.bsize} {w : Waiting} (sending : line.server = .sending ph w) :
    line.toClient = c.data.map (packetNo req content) := by
  obtain ⟨errors, whole, _, ended⟩ := follows.toClient
  cases errors with
  | nil => rwa [List.append_nil] at whole
  | cons e es =>
    obtain ⟨res, returned⟩ := ended (List.cons_ne_nil _ _)
    rw [sending] at returned
    cases returned

/-- The server reads anything but an acknowledgement of its packet. -/
theorem matched_other {line : Line req} (follows : Follows req content line c) (o : ReadOutcome)
    (other : ∀ ph w, line.server = .sending ph w → ∀ d, o = .datagram d → ¬ IsAck d ph.seq) :
    ∃ c', ReflTransGen Step c c' ∧ Follows req content (line.read o) c' := by
  obtain ⟨server, client, toClient, toServer⟩ := line
  cases server with
  | returned res =>
    refine ⟨c, ReflTransGen.refl, ?_⟩
    simpa [Line.read, resume] using follows
  | sending ph w =>
    have sent := follows.sent rfl
    have position : SendingNo req ⟨content, .eof⟩ c.cur ph := follows.server
    have queued := follows.queued
    simp only [Line.read] at sent queued ⊢
    rcases resume_cases req ph w o with
      ⟨d, rfl, ack, e⟩ | ⟨w', ignored, same, e⟩ | ⟨w', rfl, more, e⟩ | ⟨err, aborts, e⟩
    · exact absurd ack (other ph w rfl d rfl)
    · rw [e, List.append_nil]
      exact ⟨c, ReflTransGen.refl, position, ⟨[], by rw [sent, List.append_nil], by simp, by simp⟩,
        queued⟩
    · rw [e, position.packet]
      refine ⟨_, ReflTransGen.single (Step.transmit c), position, ⟨[], ?_, by simp, by simp⟩,
        ⟨queued.toServer, queued.next, queued.accepted⟩⟩
      rw [sent, List.map_append, List.append_nil]
      rfl
    · rw [e, List.append_nil]
      exact ⟨c, ReflTransGen.refl, trivial, ⟨[], by rw [sent, List.append_nil], by simp, by simp⟩,
        queued⟩

/-- The oldest acknowledgement arrives. It is of the current packet exactly if its number is. -/
theorem matched_toServer {line : Line req} (inv : Inv c) (follows : Follows req content line c)
    {d : Bytes} {rest : List Bytes} (oldest : line.toServer = d :: rest) :
    ∃ c', ReflTransGen Step c c' ∧
      Follows req content ({ line with toServer := rest }.read (.datagram d)) c' := by
  obtain ⟨cur, got, data, acks⟩ := c
  obtain ⟨i, acks, rfl, number, tail⟩ :
      ∃ i as, acks = i :: as ∧ ackPacket (UInt16.ofNat i) = d ∧
        as.map (fun i => ackPacket (UInt16.ofNat i)) = rest := by
    have image := follows.queued.toServer
    rw [oldest] at image
    exact List.map_eq_cons_iff.mp image.symm
  have popped : Follows req content { line with toServer := rest } ⟨cur, got, data, acks⟩ :=
    ⟨follows.server, follows.toClient, ⟨tail.symm, follows.queued.next, follows.queued.accepted⟩⟩
  by_cases current : i = cur
  · subst current
    rcases state : line.server with ⟨ph, w⟩ | res
    · have position : SendingNo req ⟨content, .eof⟩ i ph := by
        have := follows.server
        rwa [state] at this
      have ack : IsAck d ph.seq := by
        rw [← number, position.seq]
        exact ⟨by simp [ackPacket], rfl, number_ackPacket _⟩
      have sent := follows.sent state
      obtain ⟨c', steps, follows'⟩ := follows_next (c := ⟨i + 1, got, data, acks⟩)
        (next_afterAck position) rfl sent
        ⟨tail.symm, follows.queued.next, follows.queued.accepted⟩
      refine ⟨c', ReflTransGen.head (Step.advance i got data acks) steps, ?_⟩
      simp only [Line.read, resume_ack w ack]
      exact follows'
    · rw [state] at popped
      obtain ⟨c', steps, follows'⟩ := matched_other popped (.datagram d) (by
        intro ph w sending
        cases sending)
      exact ⟨c', ReflTransGen.head (Step.ignore i got i data acks) steps, follows'⟩
  · have previous : i + 1 = cur :=
      (inv.acks_cases List.mem_cons_self).resolve_left current
    obtain ⟨c', steps, follows'⟩ := matched_other popped (.datagram d) (by
      rintro ph w sending d' same ack
      cases same
      have position := follows.server
      rw [show line.server = .sending ph w from sending] at position
      rw [← number, position.seq] at ack
      have same := ack.2.2
      rw [number_ackPacket, ← previous] at same
      exact ofNat_succ_ne i same.symm)
    exact ⟨c', ReflTransGen.head (Step.ignore cur got i data acks) steps, follows'⟩

end Server

/-! ## The client's side -/

section Receive

variable {req : Rrq} {content : Bytes}

theorem rolling_oack (client : RollingClient) (req : Rrq) :
    ∃ blksize, client.receive (oack req) = ({ client with blksize }, [ackPacket 0]) := by
  refine ⟨(oackBlksize (oack req)).getD client.blksize, ?_⟩
  rw [RollingClient.receive, if_pos (uint16_oack req)]

theorem rolling_error {d : Bytes} (client : RollingClient) (error : uint16 d = 5) :
    client.receive d = ({ client with stopped := true }, []) := by
  have notOack : uint16 d ≠ 6 := by
    rw [error]
    decide
  have notData : uint16 d ≠ 3 := by
    rw [error]
    decide
  rw [RollingClient.receive, if_neg notOack, if_neg notData, if_pos error]

theorem rolling_data (client : RollingClient) (content : Bytes) (bsize k : Nat) :
    client.receive (dataPacket content bsize k) =
      if UInt16.ofNat k = client.next ∧ client.stopped = false then
        ({ client with
            next := client.next + 1
            accepted := client.accepted ++ fileBlock content bsize k
            stopped := (fileBlock content bsize k).length < client.blksize },
          [ackPacket (UInt16.ofNat k)])
      else if UInt16.ofNat k + 1 = client.next then (client, [ackPacket (UInt16.ofNat k)])
      else (client, []) := by
  have notOack : uint16 (dataPacket content bsize k) ≠ 6 := by
    rw [uint16_dataPacket]
    decide
  rw [RollingClient.receive, if_neg notOack, if_pos (uint16_dataPacket ..), number_dataPacket,
    payload_dataPacket]

/-- The client's answer to packet `i` goes to the end of the acknowledgements. -/
theorem Queued.answer {client client' : RollingClient} {toServer : List Bytes} {c c' : Config}
    {i : Nat} (queued : Queued req content client toServer c) (acks : c'.acks = c.acks ++ [i])
    (next : client'.next = UInt16.ofNat (max 1 c'.got))
    (accepted : client'.accepted = content.take ((c'.got - 1) * req.bsize)) :
    Queued req content client' (toServer ++ [ackPacket (UInt16.ofNat i)]) c' := by
  refine ⟨?_, next, accepted⟩
  rw [acks, queued.toServer, List.map_append]
  rfl

/-- The client takes packet `i`, the oldest one on its way, as the queues do. -/
theorem receive_packetNo {client : RollingClient} {toServer : List Bytes}
    {cur got i : Nat} {data acks : List Nat} (inv : Inv ⟨cur, got, i :: data, acks⟩)
    (queued : Queued req content client toServer ⟨cur, got, i :: data, acks⟩) :
    ∃ c', Step ⟨cur, got, i :: data, acks⟩ c' ∧ c'.cur = cur ∧ c'.data = data ∧
      Queued req content (client.receive (packetNo req content i)).1
        (toServer ++ (client.receive (packetNo req content i)).2) c' := by
  have next := queued.next
  have accepted := queued.accepted
  have place := inv.data_cases List.mem_cons_self
  simp only at next accepted place
  cases i with
  | zero =>
    obtain ⟨blksize, same⟩ := rolling_oack client req
    rw [packetNo, same]
    rcases place with rfl | rfl
    · exact ⟨_, Step.accept cur 0 data acks, rfl, rfl, queued.answer rfl next accepted⟩
    · exact ⟨_, Step.reack cur 1 0 data acks (by omega), rfl, rfl,
        queued.answer rfl next accepted⟩
  | succ k =>
    rw [packetNo, rolling_data, next]
    rcases place with rfl | rfl
    · rw [Nat.max_eq_right (by omega)]
      by_cases going : client.stopped = false
      · rw [if_pos ⟨rfl, going⟩]
        refine ⟨_, Step.accept cur (k + 1) data acks, rfl, rfl, queued.answer rfl ?_ ?_⟩
        · simp only [← ofNat_succ]
          rw [Nat.max_eq_right (by omega)]
        · simp only [accepted, fileBlock_succ, Nat.add_sub_cancel, Nat.succ_mul, List.take_add]
      · rw [if_neg (fun h => going h.2), if_neg (fun h => ofNat_succ_ne (k + 1) (by
          rw [ofNat_succ (k + 1)]
          exact h)), List.append_nil]
        exact ⟨_, Step.discard cur (k + 1) (k + 1) data acks, rfl, rfl, queued.toServer,
          queued.next, accepted⟩
    · rw [Nat.max_eq_right (by omega), if_neg (fun h => ofNat_succ_ne (k + 1) h.1.symm),
        if_pos (ofNat_succ (k + 1)).symm]
      exact ⟨_, Step.reack cur (k + 1 + 1) (k + 1) data acks (by omega), rfl, rfl,
        queued.answer rfl queued.next accepted⟩

theorem matched_toClient {line : Line req} {c : Config} (inv : Inv c)
    (follows : Follows req content line c) {d : Bytes} {rest : List Bytes}
    (oldest : line.toClient = d :: rest) :
    ∃ c', ReflTransGen Step c c' ∧
      Follows req content ({ line with toClient := rest }.deliver d) c' := by
  obtain ⟨cur, got, data, acks⟩ := c
  obtain ⟨errors, whole, isError, ended⟩ := follows.toClient
  rw [oldest] at whole
  cases data with
  | nil =>
    -- only ERROR packets are left, and the client stops
    rw [List.map_nil, List.nil_append] at whole
    subst whole
    obtain ⟨first, others⟩ := List.forall_mem_cons.mp isError
    refine ⟨_, ReflTransGen.refl, follows.server, ⟨rest, rfl, others, fun _ =>
      ended (List.cons_ne_nil _ _)⟩, ?_⟩
    simp only [Line.deliver, rolling_error _ first, List.append_nil]
    exact ⟨follows.queued.toServer, follows.queued.next, follows.queued.accepted⟩
  | cons i data =>
    rw [List.map_cons, List.cons_append] at whole
    obtain ⟨rfl, rfl⟩ := List.cons.inj whole
    obtain ⟨c', step, sameCur, sameData, queued⟩ := receive_packetNo inv follows.queued
    refine ⟨c', ReflTransGen.single step, ?_, ⟨errors, ?_, isError, ended⟩, queued⟩
    · rw [sameCur]
      exact follows.server
    · rw [sameData]
      rfl

end Receive

/-! ## Agreement -/

section Agreement

variable {req : Rrq} {addr content : Bytes} {handler : Handler}

theorem matched_line {line line' : Line req} {c : Config} (inv : Inv c)
    (follows : Follows req content line c) (step : Line.Step line line') :
    ∃ c', ReflTransGen Step c c' ∧ Follows req content line' c' := by
  cases step with
  | toServer d rest oldest => exact matched_toServer inv follows oldest
  | toClient d rest oldest => exact matched_toClient inv follows oldest
  | deadline => exact matched_other follows _ (by rintro _ _ _ _ ⟨⟩)
  | readError text => exact matched_other follows _ (by rintro _ _ _ _ ⟨⟩)
  | mangleToServer ds mangled =>
    rw [follows.queued.toServer] at mangled
    obtain ⟨acks, behind, rfl⟩ := mangled.of_map
    exact ⟨_, ReflTransGen.single (Step.mangleAcks c acks behind), follows.server,
      follows.toClient, ⟨rfl, follows.queued.next, follows.queued.accepted⟩⟩
  | mangleToClient ds mangled =>
    obtain ⟨errors, whole, isError, ended⟩ := follows.toClient
    rw [whole] at mangled
    rcases mangled.of_append with ⟨front, inFront, rfl⟩ | ⟨back, inBack, rfl⟩
    · obtain ⟨data, behind, rfl⟩ := inFront.of_map
      exact ⟨_, ReflTransGen.single (Step.mangleData c data behind), follows.server,
        ⟨errors, rfl, isError, ended⟩, ⟨follows.queued.toServer, follows.queued.next,
          follows.queued.accepted⟩⟩
    · refine ⟨c, ReflTransGen.refl, follows.server, ⟨back, rfl,
        fun p member => isError p (inBack.subset member), fun _ => ended ?_⟩, follows.queued⟩
      rintro rfl
      generalize same : ([] : List Bytes) = none at inBack
      cases inBack <;> simp at same

theorem follows_start (opened : handler req.filename addr = .ok ⟨content, .eof⟩) :
    ∃ c, Inv c ∧ Follows req content (Line.start req addr handler) c := by
  have quiet : ∀ first ≤ 1, Queued req content RollingClient.start [] (Config.start first) := by
    intro first early
    refine ⟨rfl, ?_, ?_⟩
    · show 1 = UInt16.ofNat (max 1 first)
      rw [Nat.max_eq_left early]
      rfl
    · show [] = content.take ((first - 1) * req.bsize)
      rw [Nat.sub_eq_zero_of_le early, Nat.zero_mul, List.take_zero]
  rcases transferStart_cases req opened with ⟨sending, first, start⟩ | ⟨first, next⟩
  · refine ⟨_, inv_step _ _ (inv_start 0) (Step.transmit _), ?_⟩
    simp only [Line.start, start]
    have begun := quiet 0 (by omega)
    exact ⟨sending, ⟨[], rfl, by simp, by simp⟩, ⟨begun.toServer, begun.next, begun.accepted⟩⟩
  · obtain ⟨c, steps, follows⟩ := follows_next next (c := Config.start 1) rfl rfl
      (quiet 1 (by omega))
    exact ⟨c, Transition.invariant_of_reachable inv_step (inv_start 1) steps, follows⟩

end Agreement

/-- Over a line that loses and repeats datagrams but keeps their order, a client that counts blocks
modulo 65536 as the server does has always accepted a beginning of the file, and all of it when the
server is done, however large the file is. -/
theorem transfer_agreement_inOrder (req : Rrq) (addr content : Bytes) (handler : Handler)
    (opened : handler req.filename addr = .ok ⟨content, .eof⟩) (line : Line req)
    (reach : ReflTransGen Line.Step (Line.start req addr handler) line) :
    line.client.accepted <+: content ∧
      (line.server = .returned .sent → line.client.accepted = content) := by
  obtain ⟨c, inv, start⟩ := follows_start opened
  obtain ⟨c', _, inv', follows⟩ := Transition.simulate (R := Follows req content) inv_step
    (fun _ _ _ inv related step => matched_line inv related step) inv start reach
  rw [follows.queued.accepted]
  refine ⟨List.take_prefix _ _, fun sent => ?_⟩
  have server := follows.server
  rw [sent] at server
  have whole : (c'.cur - 1) * req.bsize ≤ (c'.got - 1) * req.bsize :=
    Nat.mul_le_mul_right _ (Nat.sub_le_sub_right inv'.behind 1)
  exact List.take_of_length_le (Nat.le_trans (Nat.le_of_lt server) whole)

/-- One block of three bytes: the DATA packet is repeated on its way, and both copies are
acknowledged. -/
def repeatedLine : Line ⟨ascii "f", 0⟩ :=
  let line := Line.start ⟨ascii "f", 0⟩ (ascii "10.0.0.2:2000") (blob (ascii "abc"))
  let data : Bytes := [0, 3, 0, 1] ++ ascii "abc"
  let line := { line with toClient := [data, data] }
  let line := { line with toClient := [data] }.deliver data
  let line := { line with toClient := [] }.deliver data
  { line with toServer := [[0, 4, 0, 1]] }.read (.datagram [0, 4, 0, 1])

theorem transfer_agreement_inOrder_repeated :
    repeatedLine.server = .returned .sent ∧ repeatedLine.client.accepted = ascii "abc" := by
  have sent : repeatedLine.server = .returned .sent := by decide +kernel
  refine ⟨sent, (transfer_agreement_inOrder ⟨ascii "f", 0⟩ (ascii "10.0.0.2:2000") (ascii "abc")
    (blob (ascii "abc")) rfl repeatedLine ?_).2 sent⟩
  have first : (Line.start ⟨ascii "f", 0⟩ (ascii "10.0.0.2:2000") (blob (ascii "abc"))).toClient =
      [[0, 3, 0, 1] ++ ascii "abc"] := by decide +kernel
  refine ReflTransGen.head (Line.Step.mangleToClient _
    [[0, 3, 0, 1] ++ ascii "abc", [0, 3, 0, 1] ++ ascii "abc"] ?_) ?_
  · rw [first]
    exact Mangle.repeated [] _ []
  refine ReflTransGen.head (Line.Step.toClient _ ([0, 3, 0, 1] ++ ascii "abc")
    [[0, 3, 0, 1] ++ ascii "abc"] rfl) ?_
  refine ReflTransGen.head (Line.Step.toClient _ ([0, 3, 0, 1] ++ ascii "abc") [] rfl) ?_
  exact ReflTransGen.single
    (Line.Step.toServer _ [0, 4, 0, 1] [[0, 4, 0, 1]] (by decide +kernel))

end Pixiecore.Tftp
