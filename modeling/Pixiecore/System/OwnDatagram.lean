import Pixiecore.Pxe.Proofs.Buffer
import Pixiecore.Tftp.Proofs.Buffer

/-!
# Every reply is to its own datagram

The three UDP servers receive into one buffer each, for as long as they run. A round of theirs
sees the front of a datagram and what it asked the booter and the interface about it, and
nothing of what earlier datagrams have left behind in the buffer.
-/

namespace Pixiecore

/-! ## ProxyDHCP -/

namespace Dhcp

/-- What a round can know of a datagram: as much of it as the buffer holds, where it came from,
what the booter says about its sender, and the address of the interface. -/
structure Seen where
  data : Bytes
  ifIndex : Int
  srcIP : IPv4
  srcPort : UInt16
  boots : Option (Except Bytes Unit)
  serverIP : Except Bytes IPv4

/-- The booter's answer, if it is asked at all. -/
def boots (w : World) (data : Bytes) : Option (Except Bytes Unit) :=
  match parseDHCP data with
  | .error _ => none
  | .ok req => some (w.shouldBoot req.mac)

/-- What there is to see in a round of `ServeProxyDHCP`. -/
def sees (i : World × Received) : Option Seen :=
  match i.2 with
  | .error _ => none
  | .datagram data ifIndex srcIP srcPort =>
    some { data := data.take bufSize, ifIndex, srcIP, srcPort,
           boots := boots i.1 (data.take bufSize),
           serverIP := interfaceIP i.1.interfaceByIndex ifIndex }

/-- The offer, as far as there is one, for what was seen. -/
def offerFor : Option Seen → Option Reply
  | none => none
  | some s =>
    match parseDHCP s.data, s.boots, s.serverIP with
    | .ok req, some (.ok _), .ok ip =>
      some { data := offerDHCP { req with serverIP := some ip }, ifIndex := s.ifIndex,
             dstIP := ⟨255, 255, 255, 255⟩, dstPort := s.srcPort }
    | _, _, _ => none

theorem serveProxyDHCPRound_eq_offerFor (w : World) {buf : Bytes} (size : buf.length = bufSize)
    (received : Received) :
    (serveProxyDHCPRound w buf received).2 = offerFor (sees (w, received)) := by
  cases received with
  | error text => rfl
  | datagram data ifIndex srcIP srcPort =>
    simp only [serveProxyDHCPRound, readFrom_snd, size, sees, offerFor, boots]
    cases parseDHCP (data.take bufSize) with
    | error e => rfl
    | ok req =>
      simp only
      cases w.shouldBoot req.mac with
      | error e => rfl
      | ok _ =>
        cases interfaceIP w.interfaceByIndex ifIndex with
        | error e => rfl
        | ok ip => rfl

theorem serveProxyDHCP_ownInputOnly :
    OwnInputOnly (fun (i : World × Received) (mem : Memory bufSize) =>
      serveProxyDHCPRoundIn i.1 i.2 mem) sees offerFor := by
  apply ownInputOnly (fun i buf => serveProxyDHCPRound i.1 buf i.2)
  · intro i mem
    exact serveProxyDHCPRoundIn_returns i.1 i.2 mem
  · intro i buf size
    exact serveProxyDHCPRound_eq_offerFor i.1 size i.2

theorem offerFor_sees_iff (w : World) (data : Bytes) (ifIndex : Int) (srcIP : IPv4)
    (srcPort : UInt16) :
    (∃ reply, offerFor (sees (w, .datagram data ifIndex srcIP srcPort)) = some reply) ↔
      ∃ req ip, parseDHCP (data.take bufSize) = .ok req ∧ w.shouldBoot req.mac = .ok () ∧
        interfaceIP w.interfaceByIndex ifIndex = .ok ip := by
  constructor
  · intro ⟨reply, sent⟩
    have size : (List.replicate bufSize (0 : UInt8)).length = bufSize := List.length_replicate
    have did := serveProxyDHCPRound_eq_offerFor w size (.datagram data ifIndex srcIP srcPort)
    obtain ⟨req, ip, parsed, agreed, found, _⟩ := serveProxyDHCPRound_reply (did.trans sent)
    rw [size] at parsed
    exact ⟨req, ip, parsed, agreed, found⟩
  · intro ⟨req, ip, parsed, agreed, found⟩
    simp only [sees, offerFor, boots, parsed, agreed, found]
    exact ⟨_, rfl⟩

end Dhcp

/-! ## PXE -/

namespace Pxe

open Dhcp

/-- What there is to see in a round of `ServePXE`, which does not ask the booter. -/
def sees (i : World × Received) : Option Seen :=
  match i.2 with
  | .error _ => none
  | .datagram data ifIndex srcIP srcPort =>
    some { data := data.take bufSize, ifIndex, srcIP, srcPort, boots := none,
           serverIP := interfaceIP i.1.interfaceByIndex ifIndex }

/-- The reply, as far as there is one, to what was seen. -/
def replyFor (httpPort : Int64) : Option Seen → Option Reply
  | none => none
  | some s =>
    match parsePXE s.data, s.serverIP with
    | .ok req, .ok ip =>
      some { data := replyPXE (req.answeredBy ip httpPort), ifIndex := s.ifIndex,
             dstIP := s.srcIP, dstPort := s.srcPort }
    | _, _ => none

theorem servePXERound_eq_replyFor (httpPort : Int64) (w : World) {buf : Bytes}
    (size : buf.length = bufSize) (received : Received) :
    (servePXERound httpPort w buf received).2 = replyFor httpPort (sees (w, received)) := by
  cases received with
  | error text => rfl
  | datagram data ifIndex srcIP srcPort =>
    simp only [servePXERound, readFrom_snd, size, sees, replyFor]
    cases parsePXE (data.take bufSize) with
    | error e => rfl
    | ok req =>
      cases interfaceIP w.interfaceByIndex ifIndex with
      | error e => rfl
      | ok ip => rfl

theorem servePXE_ownInputOnly (httpPort : Int64) :
    OwnInputOnly (fun (i : World × Received) (mem : Memory bufSize) =>
      servePXERoundIn httpPort i.1 i.2 mem) sees (replyFor httpPort) := by
  apply ownInputOnly (fun i buf => servePXERound httpPort i.1 buf i.2)
  · intro i mem
    exact servePXERoundIn_returns httpPort i.1 i.2 mem
  · intro i buf size
    exact servePXERound_eq_replyFor httpPort i.1 size i.2

end Pxe

/-! ## TFTP -/

namespace Tftp

/-- What there is to see in a round of `Serve`: the client, and the front of its datagram. -/
def sees : Received → Option (Bytes × Bytes)
  | .error _ => none
  | .datagram addr data => some (addr, data.take bufSize)

/-- The ERROR packet or the transfer for what was seen. -/
def answerFor (q : Quote) : Option (Bytes × Bytes) → Answer
  | none => .nothing
  | some (addr, data) =>
    match parseRRQ addr data with
    | .error err => .writeTo addr (mkError (err.text q))
    | .ok req => .transfer addr req

theorem serveRound_eq_answerFor (q : Quote) {buf : Bytes} (size : buf.length = bufSize)
    (received : Received) : (serveRound q buf received).2 = answerFor q (sees received) := by
  cases received with
  | error text => rfl
  | datagram addr data =>
    cases parsed : parseRRQ addr (data.take bufSize) with
    | error err => simp only [serveRound_datagram q size addr data, sees, answerFor, parsed]
    | ok req => simp only [serveRound_datagram q size addr data, sees, answerFor, parsed]

theorem serve_ownInputOnly (q : Quote) :
    OwnInputOnly (fun (received : Received) (mem : Memory bufSize) =>
      serveRoundIn q received mem) sees (answerFor q) := by
  apply ownInputOnly (fun received buf => serveRound q buf received)
  · intro received mem
    exact serveRoundIn_returns q received mem
  · intro received buf size
    exact serveRound_eq_answerFor q size received

end Tftp

/-! ## All three -/

/-- Whatever a server has received and whatever its buffer held, what it does in a round is a
function of what it sees of the datagram of that round; runs that agree on this agree on the
reply; and an offer is sent if and only if the request is acceptable, the booter says yes and
the interface has an address. -/
theorem replies_own_datagram (httpPort : Int64) (q : Tftp.Quote) :
    OwnInputOnly (fun (i : Dhcp.World × Dhcp.Received) (mem : Memory Dhcp.bufSize) =>
      Dhcp.serveProxyDHCPRoundIn i.1 i.2 mem) Dhcp.sees Dhcp.offerFor ∧
    OwnInputOnly (fun (i : Dhcp.World × Dhcp.Received) (mem : Memory Dhcp.bufSize) =>
      Pxe.servePXERoundIn httpPort i.1 i.2 mem) Pxe.sees (Pxe.replyFor httpPort) ∧
    OwnInputOnly (fun (received : Tftp.Received) (mem : Memory Tftp.bufSize) =>
      Tftp.serveRoundIn q received mem) Tftp.sees (Tftp.answerFor q) ∧
    ∀ (mem : Memory Dhcp.bufSize) (before after : List (Dhcp.World × Dhcp.Received))
      (w : Dhcp.World) (data : Bytes) (ifIndex : Int) (srcIP : IPv4) (srcPort : UInt16),
      (∃ sent reply,
        rounds (fun (i : Dhcp.World × Dhcp.Received) mem => Dhcp.serveProxyDHCPRoundIn i.1 i.2 mem)
          mem (before ++ (w, .datagram data ifIndex srcIP srcPort) :: after) = some sent ∧
        sent[before.length]? = some (some reply)) ↔
      ∃ req ip, Dhcp.parseDHCP (data.take Dhcp.bufSize) = .ok req ∧
        w.shouldBoot req.mac = .ok () ∧ Dhcp.interfaceIP w.interfaceByIndex ifIndex = .ok ip := by
  refine ⟨Dhcp.serveProxyDHCP_ownInputOnly, Pxe.servePXE_ownInputOnly httpPort,
    Tftp.serve_ownInputOnly q, ?_⟩
  intro mem before after w data ifIndex srcIP srcPort
  rw [← Dhcp.offerFor_sees_iff w data ifIndex srcIP srcPort]
  have runs := Dhcp.serveProxyDHCP_ownInputOnly.runs mem
    (before ++ (w, .datagram data ifIndex srcIP srcPort) :: after)
  have here : ((before ++ (w, .datagram data ifIndex srcIP srcPort) :: after).map
      (fun i => Dhcp.offerFor (Dhcp.sees i)))[before.length]? =
      some (Dhcp.offerFor (Dhcp.sees (w, .datagram data ifIndex srcIP srcPort))) := by
    rw [List.getElem?_map, List.getElem?_append_right (Nat.le_refl _), Nat.sub_self]
    rfl
  constructor
  · intro ⟨sent, reply, isSent, isReply⟩
    cases runs.symm.trans isSent
    rw [here] at isReply
    exact ⟨reply, Option.some.inj isReply⟩
  · intro ⟨reply, isReply⟩
    rw [isReply] at here
    exact ⟨_, reply, runs, here⟩

/-- A request that is cut off gets the same answer after one that would complete it, and after
none. -/
theorem replies_own_datagram_cutOff :
    (rounds (Tftp.serveRoundIn ⟨id, itoa⟩) ⟨List.replicate 512 0, List.length_replicate⟩
      [.datagram (ascii "a") ([0, 1] ++ ascii "boot" ++ [0] ++ ascii "octet" ++ [0]),
       .datagram (ascii "b") ([0, 1] ++ ascii "boot")]).map (fun as => as[1]?) =
    (rounds (Tftp.serveRoundIn ⟨id, itoa⟩) ⟨List.replicate 512 0, List.length_replicate⟩
      [.error [], .datagram (ascii "b") ([0, 1] ++ ascii "boot")]).map (fun as => as[1]?) :=
  (replies_own_datagram 80 ⟨id, itoa⟩).2.2.1.twoRuns _ _ _ _ 1 rfl

end Pixiecore
