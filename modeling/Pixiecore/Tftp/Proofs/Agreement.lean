import Pixiecore.Misc.StopAndWait
import Pixiecore.Tftp.Client
import Pixiecore.Tftp.Proofs.Step

/-!
# Agreement over an unreliable network

The server and the reference client, over a network that loses, repeats, delays and
reorders datagrams, are simulated by stop-and-wait with the OACK as packet 0 and the
blocks as packets 1, 2, and so on. As long as no block number repeats, the client has
always accepted a beginning of the file, and all of it once the server is done.
-/

namespace Pixiecore.Tftp

open Relation StopAndWait

/-- Where the server is in the file, given the packet being sent. -/
def ServerAt (req : Rrq) (content : Bytes) (cur : Nat) : State req.bsize → Prop
  | .sending ph _ => SendingNo req ⟨content, .eof⟩ cur ph ∧ cur ≤ 65535
  | .returned .sent => content.length < (cur - 1) * req.bsize
  | .returned _ => True

/-- The client and the datagrams are as the stop-and-wait state says. -/
structure Traffic (req : Rrq) (content : Bytes) (client : Client)
    (toClient toServer : List Bytes) (c : Config) : Prop where
  toClient : ∀ p ∈ toClient, (∃ i ∈ c.data, p = packetNo req content i) ∨ uint16 p = 5
  toServer : ∀ d ∈ toServer, ∃ i ∈ c.acks, d = ackPacket (UInt16.ofNat i)
  numbered : ∀ i ∈ c.data, i ≤ 65535
  next : client.next = max 1 c.got
  accepted : client.accepted = content.take ((c.got - 1) * req.bsize)

/-- The network is in a state that the stop-and-wait state describes. -/
structure Describes (req : Rrq) (content : Bytes) (net : Net req) (c : Config) : Prop where
  server : ServerAt req content c.cur net.server
  traffic : Traffic req content net.client net.toClient net.toServer c

theorem number_ackPacket (n : UInt16) : uint16 ((ackPacket n).drop 2) = n := by
  show uint16 (bigEndian16 n) = n
  rw [← List.append_nil (bigEndian16 n), uint16_bigEndian16]

theorem ofNat_inj_of_le {i j : Nat} (hi : i ≤ 65535) (hj : j ≤ 65535)
    (h : UInt16.ofNat i = UInt16.ofNat j) : i = j := by
  have same := congrArg UInt16.toNat h
  rwa [UInt16.toNat_ofNat', UInt16.toNat_ofNat', Nat.mod_eq_of_lt (by omega),
    Nat.mod_eq_of_lt (by omega)] at same

/-! ## The server's side -/

section Server

variable {req : Rrq} {content : Bytes} {client : Client} {toClient toServer : List Bytes}
  {c : Config}

theorem Traffic.transmit (traffic : Traffic req content client toClient toServer c)
    (bound : c.cur ≤ 65535) :
    Traffic req content client (toClient ++ [packetNo req content c.cur]) toServer
      { c with data := insert c.cur c.data } := by
  refine ⟨?_, traffic.toServer, ?_, traffic.next, traffic.accepted⟩
  · intro p member
    rcases List.mem_append.mp member with old | new
    · rcases traffic.toClient p old with ⟨i, sent, same⟩ | error
      · exact Or.inl ⟨i, Or.inr sent, same⟩
      · exact Or.inr error
    · exact Or.inl ⟨c.cur, Or.inl rfl, List.mem_singleton.mp new⟩
  · rintro i (rfl | old)
    · exact bound
    · exact traffic.numbered i old

/-- Whatever the server goes on to after packet `i` is a transmission, or nothing. -/
theorem describes_next {i : Nat} {r : State req.bsize × List Bytes}
    (few : content.length ≤ 65535 * req.bsize) (next : Next req ⟨content, .eof⟩ i r)
    (traffic : Traffic req content client toClient toServer c) (here : c.cur = i + 1) :
    ∃ c', ReflTransGen Step c c' ∧
      Describes req content ⟨r.1, client, toClient ++ r.2, toServer⟩ c' := by
  cases next with
  | block blk h left =>
    have more : i * req.bsize < 65535 * req.bsize := Nat.lt_of_lt_of_le (left rfl) few
    have bound : c.cur ≤ 65535 := by
      rw [here]
      exact (Nat.mul_lt_mul_right (bsize_pos req)).mp more
    refine ⟨_, ReflTransGen.single (Step.transmit c), ?_, ?_⟩
    · rw [← here] at h
      exact ⟨h, bound⟩
    · rw [← here]
      exact traffic.transmit bound
  | error =>
    refine ⟨c, ReflTransGen.refl, trivial, ⟨?_, traffic.toServer, traffic.numbered, traffic.next,
      traffic.accepted⟩⟩
    intro p member
    rcases List.mem_append.mp member with old | new
    · exact traffic.toClient p old
    · rw [List.mem_singleton.mp new]
      exact Or.inr (uint16_mkError _)
  | done one inside short =>
    refine ⟨c, ReflTransGen.refl, ?_, ?_⟩
    · rw [here]
      exact short
    · rw [List.append_nil]
      exact traffic

/-- The server reads an ACK of the current packet, ignores a datagram, sends the packet again,
or gives up: each is matched. -/
theorem matched_read {net : Net req} (few : content.length ≤ 65535 * req.bsize) (inv : Inv c)
    (related : Describes req content net c) (o : ReadOutcome)
    (sent : ∀ d, o = .datagram d → d ∈ net.toServer) :
    ∃ c', ReflTransGen Step c c' ∧ Describes req content (net.read o) c' := by
  obtain ⟨server, client, toClient, toServer⟩ := net
  obtain ⟨position, traffic⟩ := related
  cases server with
  | returned res =>
    refine ⟨c, ReflTransGen.refl, position, ?_⟩
    simpa [Net.read, resume] using traffic
  | sending ph w =>
    obtain ⟨h, bound⟩ := position
    simp only [Net.read]
    rcases resume_cases req ph w o with
      ⟨d, rfl, ack, e⟩ | ⟨w', ignored, same, e⟩ | ⟨w', rfl, more, e⟩ | ⟨err, aborts, e⟩
    · rw [e]
      -- the ACK was sent for some packet, and its number fits the current one only
      obtain ⟨i, acked, rfl⟩ := traffic.toServer d (sent d rfl)
      have number := ack.2.2
      rw [number_ackPacket, h.seq] at number
      have before := inv.acked i acked
      have ahead := inv.ahead
      obtain rfl : i = c.cur := ofNat_inj_of_le (by omega) bound number
      obtain ⟨c', steps, describes⟩ := describes_next (c := { c with cur := c.cur + 1 }) few
        (next_afterAck h) ⟨traffic.toClient, traffic.toServer, traffic.numbered, traffic.next,
          traffic.accepted⟩ rfl
      exact ⟨c', ReflTransGen.head (Step.advance c acked) steps, describes⟩
    · rw [e, List.append_nil]
      exact ⟨c, ReflTransGen.refl, ⟨h, bound⟩, traffic⟩
    · rw [e, h.packet]
      exact ⟨_, ReflTransGen.single (Step.transmit c), ⟨h, bound⟩, traffic.transmit bound⟩
    · rw [e, List.append_nil]
      exact ⟨c, ReflTransGen.refl, trivial, traffic⟩

end Server

/-! ## The client's side -/

section Receive

variable {req : Rrq} {content : Bytes} {client : Client} {toClient toServer : List Bytes}
  {c : Config}

/-- The client's answer to packet `i` is matched by a step that adds `i` to the
acknowledgements. -/
theorem Traffic.answer {c' : Config} {client' : Client} {i : Nat}
    (traffic : Traffic req content client toClient toServer c) (data : c'.data = c.data)
    (acks : c'.acks = insert i c.acks) (next : client'.next = max 1 c'.got)
    (accepted : client'.accepted = content.take ((c'.got - 1) * req.bsize)) :
    Traffic req content client' toClient (toServer ++ [ackPacket (UInt16.ofNat i)]) c' := by
  refine ⟨?_, ?_, ?_, next, accepted⟩
  · rw [data]
    exact traffic.toClient
  · rw [acks]
    intro d member
    rcases List.mem_append.mp member with old | new
    · obtain ⟨j, acked, same⟩ := traffic.toServer d old
      exact ⟨j, Or.inr acked, same⟩
    · exact ⟨i, Or.inl rfl, List.mem_singleton.mp new⟩
  · rw [data]
    exact traffic.numbered

theorem receive_oack (client : Client) (req : Rrq) :
    ∃ blksize, client.receive (oack req) = ({ client with blksize }, [ackPacket 0]) := by
  refine ⟨(oackBlksize (oack req)).getD client.blksize, ?_⟩
  rw [Client.receive, if_pos (uint16_oack req)]

theorem receive_error {d : Bytes} (client : Client) (error : uint16 d = 5) :
    client.receive d = ({ client with stopped := true }, []) := by
  have notOack : uint16 d ≠ 6 := by
    rw [error]
    decide
  have notData : uint16 d ≠ 3 := by
    rw [error]
    decide
  rw [Client.receive, if_neg notOack, if_neg notData, if_pos error]

theorem receive_data (client : Client) (content : Bytes) (bsize : Nat) {k : Nat}
    (small : k ≤ 65535) :
    client.receive (dataPacket content bsize k) =
      if k = client.next ∧ client.stopped = false then
        ({ client with
            next := client.next + 1
            accepted := client.accepted ++ fileBlock content bsize k
            stopped := (fileBlock content bsize k).length < client.blksize },
          [ackPacket (UInt16.ofNat k)])
      else if k < client.next then (client, [ackPacket (UInt16.ofNat k)])
      else (client, []) := by
  have notOack : uint16 (dataPacket content bsize k) ≠ 6 := by
    rw [uint16_dataPacket]
    decide
  have number : (UInt16.ofNat k).toNat = k := by
    rw [UInt16.toNat_ofNat', Nat.mod_eq_of_lt (by omega)]
  rw [Client.receive, if_neg notOack, if_pos (uint16_dataPacket ..), number_dataPacket,
    payload_dataPacket]
  simp only [number]

/-- The client accepts the block it expects, or acknowledges an older one, or does neither. -/
theorem matched_deliver {net : Net req} (inv : Inv c) (related : Describes req content net c)
    {d : Bytes} (sent : d ∈ net.toClient) :
    ∃ c', ReflTransGen Step c c' ∧ Describes req content (net.deliver d) c' := by
  obtain ⟨server, client, toClient, toServer⟩ := net
  obtain ⟨position, traffic⟩ := related
  simp only [Net.deliver] at position traffic sent ⊢
  rcases traffic.toClient d sent with ⟨i, arrived, rfl⟩ | error
  · have next := traffic.next
    have accepted := traffic.accepted
    have order := inv.le_got arrived
    cases i with
    | zero =>
      obtain ⟨blksize, same⟩ := receive_oack client req
      rw [packetNo, same]
      by_cases fresh : c.got = 0
      · rw [← fresh] at arrived
        refine ⟨_, ReflTransGen.single (Step.accept c arrived), position, ?_⟩
        refine traffic.answer rfl (by simp only [fresh]) ?_ ?_
        · rw [next, fresh]
          rfl
        · rw [accepted, fresh]
          rfl
      · refine ⟨_, ReflTransGen.single (Step.reack c 0 (Nat.pos_of_ne_zero fresh)), position, ?_⟩
        exact traffic.answer rfl rfl next accepted
    | succ k =>
      rw [packetNo, receive_data client content _ (traffic.numbered _ arrived)]
      have expected : client.next = c.got := by
        rw [next]
        omega
      rw [expected]
      by_cases takes : k + 1 = c.got ∧ client.stopped = false
      · rw [if_pos takes]
        have here := takes.1
        rw [here] at arrived
        refine ⟨_, ReflTransGen.single (Step.accept c arrived), position, ?_⟩
        refine traffic.answer rfl (by rw [here]) ?_ ?_
        · show c.got + 1 = max 1 (c.got + 1)
          omega
        · simp only [accepted, ← here, fileBlock_succ, Nat.add_sub_cancel, Nat.succ_mul,
            List.take_add]
      · rw [if_neg takes]
        by_cases older : k + 1 < c.got
        · rw [if_pos older]
          exact ⟨_, ReflTransGen.single (Step.reack c _ older), position,
            traffic.answer rfl rfl next accepted⟩
        · rw [if_neg older, List.append_nil]
          exact ⟨c, ReflTransGen.refl, position, traffic⟩
  · rw [receive_error client error, List.append_nil]
    exact ⟨c, ReflTransGen.refl, position, ⟨traffic.toClient, traffic.toServer, traffic.numbered,
      traffic.next, traffic.accepted⟩⟩

end Receive

/-! ## Agreement -/

section Agreement

variable {req : Rrq} {addr content : Bytes} {handler : Handler}

theorem matched_step {net net' : Net req} {c : Config}
    (few : content.length ≤ 65535 * req.bsize) (inv : Inv c)
    (related : Describes req content net c) (step : Net.Step net net') :
    ∃ c', ReflTransGen Step c c' ∧ Describes req content net' c' := by
  cases step with
  | toServer d sent => exact matched_read few inv related _ (by rintro _ ⟨⟩; exact sent)
  | deadline => exact matched_read few inv related _ (by rintro _ ⟨⟩)
  | readError text => exact matched_read few inv related _ (by rintro _ ⟨⟩)
  | toClient d sent => exact matched_deliver inv related sent

theorem describes_start (few : content.length ≤ 65535 * req.bsize)
    (opened : handler req.filename addr = .ok ⟨content, .eof⟩) :
    ∃ c, Inv c ∧ Describes req content (Net.start req addr handler) c := by
  have quiet : ∀ first ≤ 1, Traffic req content Client.start [] [] (Config.start first) := by
    intro first early
    refine ⟨fun _ h => absurd h List.not_mem_nil, fun _ h => absurd h List.not_mem_nil,
      fun _ h => absurd h (Set.notMem_empty _), ?_, ?_⟩
    · show 1 = max 1 first
      omega
    · show [] = content.take ((first - 1) * req.bsize)
      rw [Nat.sub_eq_zero_of_le early, Nat.zero_mul, List.take_zero]
  rcases transferStart_cases req opened with ⟨sending, first, start⟩ | ⟨first, next⟩
  · refine ⟨_, inv_step _ _ (inv_start 0) (Step.transmit _), ?_⟩
    simp only [Net.start, start]
    exact ⟨⟨sending, Nat.zero_le _⟩, (quiet 0 (by omega)).transmit (Nat.zero_le _)⟩
  · obtain ⟨c, steps, describes⟩ := describes_next few next (quiet 1 (by omega)) rfl
    exact ⟨c, Transition.invariant_of_reachable inv_step (inv_start 1) steps, describes⟩

/-- Over any network, the client has always accepted a beginning of the file, and when the
server is done it has accepted all of it. No block number repeats in a file of at most 65535
blocks. -/
theorem transfer_agreement (req : Rrq) (addr content : Bytes) (handler : Handler)
    (opened : handler req.filename addr = .ok ⟨content, .eof⟩)
    (few : content.length ≤ 65535 * req.bsize) (net : Net req)
    (reach : ReflTransGen Net.Step (Net.start req addr handler) net) :
    net.client.accepted <+: content ∧
      (net.server = .returned .sent → net.client.accepted = content) := by
  obtain ⟨c, inv, start⟩ := describes_start few opened
  obtain ⟨c', _, inv', server, traffic⟩ := Transition.simulate (R := Describes req content)
    inv_step (fun _ _ _ inv related step => matched_step few inv related step) inv start reach
  rw [traffic.accepted]
  refine ⟨List.take_prefix _ _, fun sent => ?_⟩
  rw [sent] at server
  have whole : (c'.cur - 1) * req.bsize ≤ (c'.got - 1) * req.bsize :=
    Nat.mul_le_mul_right _ (Nat.sub_le_sub_right inv'.behind 1)
  exact List.take_of_length_le (Nat.le_trans (Nat.le_of_lt server) whole)

end Agreement

/-- A transfer of one block, with every datagram delivered once. -/
def deliveredNet : Net ⟨ascii "f", 8⟩ :=
  let net := Net.start ⟨ascii "f", 8⟩ (ascii "10.0.0.2:2000") (blob (ascii "abc"))
  let net := (net.deliver (oack ⟨ascii "f", 8⟩)).read (.datagram [0, 4, 0, 0])
  (net.deliver ([0, 3, 0, 1] ++ ascii "abc")).read (.datagram [0, 4, 0, 1])

theorem transfer_agreement_delivered :
    deliveredNet.server = .returned .sent ∧ deliveredNet.client.accepted = ascii "abc" := by
  have sent : deliveredNet.server = .returned .sent := by decide +kernel
  refine ⟨sent, (transfer_agreement ⟨ascii "f", 8⟩ (ascii "10.0.0.2:2000") (ascii "abc")
    (blob (ascii "abc")) rfl (by decide) deliveredNet ?_).2 sent⟩
  refine ReflTransGen.head (Net.Step.toClient _ (oack ⟨ascii "f", 8⟩) (by decide +kernel)) ?_
  refine ReflTransGen.head (Net.Step.toServer _ [0, 4, 0, 0] (by decide +kernel)) ?_
  refine ReflTransGen.head
    (Net.Step.toClient _ ([0, 3, 0, 1] ++ ascii "abc") (by decide +kernel)) ?_
  exact ReflTransGen.single (Net.Step.toServer _ [0, 4, 0, 1] (by decide +kernel))

end Pixiecore.Tftp
