import Pixiecore.Tftp.Proofs.Lockstep
import Pixiecore.Tftp.Proofs.ErrorLoop
import Pixiecore.Tftp.Terminals

/-!
# Agreement with many clients at once

A whole network of clients is cut down to one transfer and its client: what the two have
sent each other is a state that the pair can reach alone (`Network.between`). Agreement for
one transfer therefore holds for all of them at once.
-/

namespace Pixiecore.Tftp

open Relation Transition

/-! ## The wire between two addresses -/

/-- What was sent from one address to another. -/
def carried (src dst : Bytes) (wire : List Datagram) : List Bytes :=
  (wire.filter (fun d => d.src = src ∧ d.dst = dst)).map Datagram.data

theorem carried_append (src dst : Bytes) (wire new : List Datagram) :
    carried src dst (wire ++ new) = carried src dst wire ++ carried src dst new := by
  rw [carried, List.filter_append, List.map_append]
  rfl

theorem carried_eq_nil {src dst : Bytes} {wire : List Datagram}
    (other : ∀ d ∈ wire, ¬ (d.src = src ∧ d.dst = dst)) : carried src dst wire = [] := by
  rw [carried, List.filter_eq_nil_iff.mpr (by simpa using other), List.map_nil]

theorem carried_map (src dst : Bytes) (ps : List Bytes) :
    carried src dst (ps.map (fun p => ⟨src, dst, p⟩)) = ps := by
  induction ps with
  | nil => rfl
  | cons p ps ih =>
    rw [List.map_cons, carried, List.filter_cons_of_pos (by simp), List.map_cons]
    exact congrArg (p :: ·) ih

theorem mem_carried {d : Datagram} {wire : List Datagram} (sent : d ∈ wire) :
    d.data ∈ carried d.src d.dst wire :=
  List.mem_map_of_mem (List.mem_filter.mpr ⟨sent, by simp⟩)

@[simp] theorem sentIn_map (ds : List Datagram) : sentIn (ds.map .sent) = ds := by
  induction ds with
  | nil => rfl
  | cons d ds ih => exact congrArg (d :: ·) ih

theorem sentIn_heard (t : Transfer) (o : ReadOutcome) (ws : List Wire) :
    sentIn (t.heard o ++ ws) = sentIn ws := by
  cases o <;> rfl

theorem ends_of_mem_sends {t : Transfer} {ws : List Bytes} {d : Datagram}
    (member : d ∈ t.sends ws) :
    d.src = t.sock ∧ d.dst = t.peer := by
  obtain ⟨_, _, rfl⟩ := List.mem_map.mp member
  exact ⟨rfl, rfl⟩

theorem eight_le_bsize {addr b : Bytes} {req : Rrq} (parsed : parseRRQ addr b = .ok req) :
    8 ≤ req.bsize := by
  have valid := parseRRQ_blockSize parsed
  unfold ValidBlockSize at valid
  unfold Rrq.bsize
  split <;> omega

/-! ## The network cut down to one transfer -/

namespace Network

variable (pl : Place)

/-- One transfer, its client if the client has taken it for its own, and what the two have sent
each other. -/
def between (n : Network) (t : Transfer) : Net t.req where
  server := t.state
  client :=
    if (n.terminals t.peer).tid = some t.sock then (n.terminals t.peer).client else Client.start
  toClient := carried t.sock t.peer n.wire
  toServer := carried t.peer t.sock n.wire

/-- The transfer got no socket and has never sent anything, or it and its client are where they
could be alone. -/
inductive Session (n : Network) (t : Transfer) : Prop
  | noSocket (text : Bytes) (ended : t.state = .returned (.noSocket text))
      (silent : ∀ d ∈ n.wire, d.src ≠ t.sock)
      (unknown : (n.terminals t.peer).tid ≠ some t.sock) : Session n t
  | alone (reach : ReflTransGen Net.Step (Net.start t.req t.peer (pl.site.handler pl.here))
      (n.between t)) : Session n t

/-- The two ends of each transfer. -/
def ends (ts : List Transfer) : List (Bytes × Bytes) := ts.map (fun t => (t.sock, t.peer))

/-- What may be on the wire: something for the listener, an ERROR from it, or something between
the two ends of a transfer. -/
inductive OnWire (es : List (Bytes × Bytes)) (d : Datagram) : Prop
  | request (client : d.src ∈ pl.clients) (listener : d.dst = pl.here) : OnWire es d
  | error (listener : d.src = pl.here) (client : d.dst ∈ pl.clients) (opcode : uint16 d.data = 5) :
      OnWire es d
  | packet (known : (d.src, d.dst) ∈ es) : OnWire es d
  | ack (known : (d.dst, d.src) ∈ es) : OnWire es d

/-- Sockets are nobody else's, clients listen to their own transfer only, and each transfer is
alone with its client. -/
structure Inv (n : Network) : Prop where
  peers : ∀ e ∈ ends n.server.transfers, e.2 ∈ pl.clients
  socks : ∀ e ∈ ends n.server.transfers, e.1 ≠ pl.here ∧ e.1 ∉ pl.clients
  distinct : (n.server.transfers.map Transfer.sock).Nodup
  wire : ∀ d ∈ n.wire, OnWire pl (ends n.server.transfers) d
  idle : ∀ a, (n.terminals a).tid = none → (n.terminals a).client = Client.start
  tids : ∀ a s, (n.terminals a).tid = some s →
    (s = pl.here ∧ (n.terminals a).client.accepted = []) ∨ (s, a) ∈ ends n.server.transfers
  sessions : ∀ t ∈ n.server.transfers, Session pl n t

section Frame

variable {pl} {n n' : Network} {t : Transfer}

/-- A session is not touched by what goes on between others. -/
theorem Session.frame {new : List Datagram} (session : Session pl n t)
    (wire : n'.wire = n.wire ++ new) (other : ∀ d ∈ new, d.src ≠ t.sock ∧ d.dst ≠ t.sock)
    (terminal : n'.terminals t.peer = n.terminals t.peer ∨
      (n.terminals t.peer).tid ≠ some t.sock ∧ (n'.terminals t.peer).tid ≠ some t.sock) :
    Session pl n' t := by
  have toClient : carried t.sock t.peer n'.wire = carried t.sock t.peer n.wire := by
    rw [wire, carried_append, carried_eq_nil (fun d member same => (other d member).1 same.1),
      List.append_nil]
  have toServer : carried t.peer t.sock n'.wire = carried t.peer t.sock n.wire := by
    rw [wire, carried_append, carried_eq_nil (fun d member same => (other d member).2 same.2),
      List.append_nil]
  cases session with
  | noSocket text ended silent unknown =>
    refine Session.noSocket text ended ?_ ?_
    · rw [wire]
      intro d member
      rcases List.mem_append.mp member with old | fresh
      · exact silent d old
      · exact (other d fresh).1
    · rcases terminal with same | ⟨_, away⟩
      · rwa [same]
      · exact away
  | alone reach =>
    have same : n'.between t = n.between t := by
      unfold between
      rw [toClient, toServer]
      rcases terminal with same | ⟨away, away'⟩
      · rw [same]
      · rw [if_neg away, if_neg away']
    refine Session.alone ?_
    rwa [same]

/-- A transfer that has just been started, on a socket that was not used before. -/
theorem Session.begin {sock addr : Bytes} {dial : Except Bytes Unit} {req : Rrq} {ws : List Bytes}
    (started : Transfer.started pl.site pl.here sock addr dial req = (t, ws)) (apart : addr ≠ sock)
    (unused : ∀ d ∈ n.wire, d.src ≠ sock ∧ d.dst ≠ sock)
    (strange : (n.terminals addr).tid ≠ some sock) (terminals : n'.terminals = n.terminals)
    (wire : n'.wire = n.wire ++ t.sends ws) : Session pl n' t := by
  have fromSock : ∀ a, carried sock a n.wire = [] := fun a =>
    carried_eq_nil (fun d old same => (unused d old).1 same.1)
  have toSock : ∀ a, carried a sock n.wire = [] := fun a =>
    carried_eq_nil (fun d old same => (unused d old).2 same.2)
  cases dial with
  | error text =>
    cases started
    refine Session.noSocket text rfl ?_ (by rw [terminals]; exact strange)
    rw [wire]
    intro d member
    rcases List.mem_append.mp member with old | fresh
    · exact (unused d old).1
    · cases fresh
  | ok _ =>
    have backwards : ∀ d ∈ t.sends ws, ¬ (d.src = addr ∧ d.dst = sock) := by
      intro d member same
      rw [(ends_of_mem_sends member).1, (ends_started started).1] at same
      exact apart same.1.symm
    unfold Transfer.started at started
    cases started
    refine Session.alone ?_
    have begins : n'.between ⟨sock, addr, req, (transferStart req (.ok ()) addr
        (pl.site.handler pl.here)).1⟩ = Net.start req addr (pl.site.handler pl.here) := by
      unfold between Net.start
      rw [terminals, if_neg strange, wire, carried_append, carried_append, fromSock, toSock,
        carried_eq_nil backwards, Transfer.sends, carried_map]
      rfl
    exact begins ▸ ReflTransGen.refl

/-- A transfer goes on: so does the pair of it and its client. -/
theorem Session.resume {t' : Transfer} {o : ReadOutcome} {ws : List Bytes}
    (session : Session pl n t) (resumed : t.resumed o = (t', ws))
    (arrived : ∀ d, o = .datagram d → Datagram.mk t.peer t.sock d ∈ n.wire)
    (apart : t.peer ≠ t.sock) (terminals : n'.terminals = n.terminals)
    (wire : n'.wire = n.wire ++ t'.sends ws) : Session pl n' t' := by
  cases session with
  | noSocket text ended silent unknown =>
    rw [resumed_eq, ended] at resumed
    obtain ⟨rfl, rfl⟩ := Prod.mk.inj resumed
    refine Session.noSocket text rfl ?_ (by rw [terminals]; exact unknown)
    rw [wire]
    exact List.forall_mem_append.mpr ⟨silent, fun d fresh => absurd fresh List.not_mem_nil⟩
  | alone reach =>
    have backwards : ∀ d ∈ t'.sends ws, ¬ (d.src = t.peer ∧ d.dst = t.sock) := by
      intro d member same
      rw [(ends_of_mem_sends member).1, (ends_resumed resumed).1] at same
      exact apart same.1.symm
    rw [resumed_eq] at resumed
    obtain ⟨rfl, rfl⟩ := Prod.mk.inj resumed
    have goes : n'.between ⟨t.sock, t.peer, t.req, (Tftp.resume t.req t.state o).1⟩ =
        (n.between t).read o := by
      unfold between Net.read
      rw [terminals, wire, carried_append, carried_append, carried_eq_nil backwards,
        List.append_nil, Transfer.sends, carried_map]
    refine Session.alone (reach.tail (goes ▸ ?_))
    cases o with
    | datagram d => exact Net.Step.toServer _ d (mem_carried (arrived d rfl))
    | timeout => exact Net.Step.deadline _
    | failed text => exact Net.Step.readError _ text

/-- A packet of the transfer reaches its client. -/
theorem Session.deliver {d : Datagram} {client' : Client} {ws : List Bytes}
    (session : Session pl n t) (sent : d ∈ n.wire) (src : d.src = t.sock) (dst : d.dst = t.peer)
    (apart : t.peer ≠ t.sock)
    (own : (n.terminals t.peer).tid = none ∧ (n.terminals t.peer).client = Client.start ∨
      (n.terminals t.peer).tid = some t.sock)
    (received : (n.terminals t.peer).client.receive d.data = (client', ws))
    (state : n'.terminals t.peer = ⟨some t.sock, client'⟩)
    (wire : n'.wire = n.wire ++ ws.map (fun p => ⟨t.peer, t.sock, p⟩)) : Session pl n' t := by
  cases session with
  | noSocket text ended silent unknown => exact absurd src (silent d sent)
  | alone reach =>
    have here : (n.between t).client = (n.terminals t.peer).client := by
      simp only [between]
      rcases own with ⟨none, fresh⟩ | same
      · rw [none, if_neg (by simp), fresh]
      · rw [if_pos same]
    have backwards : ∀ d' ∈ ws.map (fun p => Datagram.mk t.peer t.sock p),
        ¬ (d'.src = t.sock ∧ d'.dst = t.peer) := by
      intro d' member same
      obtain ⟨_, _, rfl⟩ := List.mem_map.mp member
      exact apart same.1
    have goes : n'.between t = (n.between t).deliver d.data := by
      unfold Net.deliver
      rw [here, received]
      unfold between
      rw [state, if_pos rfl, wire, carried_append, carried_append, carried_eq_nil backwards,
        carried_map, List.append_nil]
    refine Session.alone (reach.tail (goes ▸ Net.Step.toClient _ _ ?_))
    have member := mem_carried sent
    rwa [src, dst] at member

theorem OnWire.mono {es es' : List (Bytes × Bytes)} (more : es ⊆ es') {d : Datagram}
    (h : OnWire pl es d) : OnWire pl es' d := by
  cases h with
  | request client listener => exact OnWire.request client listener
  | error listener client opcode => exact OnWire.error listener client opcode
  | packet known => exact OnWire.packet (more known)
  | ack known => exact OnWire.ack (more known)

theorem mem_ends {ts : List Transfer} (member : t ∈ ts) : (t.sock, t.peer) ∈ ends ts :=
  List.mem_map_of_mem member

end Frame

/-! ## Where datagrams come from -/

namespace Inv

variable {pl} {n n' : Network}

/-- Whoever writes to the listener is a client. -/
theorem client_of_here (inv : Inv pl n) {d : Datagram} (sent : d ∈ n.wire)
    (listener : d.dst = pl.here) : d.src ∈ pl.clients := by
  cases inv.wire d sent with
  | request client => exact client
  | error _ client => exact absurd (listener ▸ client) pl.apart
  | packet known => exact absurd (listener ▸ inv.peers _ known) pl.apart
  | ack known => exact absurd listener (inv.socks _ known).1

/-- What a client receives is an ERROR from the listener or comes from a transfer to it. -/
theorem to_client (inv : Inv pl n) {d : Datagram} (sent : d ∈ n.wire)
    (client : d.dst ∈ pl.clients) :
    (d.src = pl.here ∧ uint16 d.data = 5) ∨ (d.src, d.dst) ∈ ends n.server.transfers := by
  cases inv.wire d sent with
  | request _ listener => exact absurd (listener ▸ client) pl.apart
  | error listener _ opcode => exact Or.inl ⟨listener, opcode⟩
  | packet known => exact Or.inr known
  | ack known => exact absurd client (inv.socks _ known).2

/-- Nothing was ever sent to or from a new socket. -/
theorem unused (inv : Inv pl n) {sock : Bytes} (notHere : sock ≠ pl.here)
    (notClient : sock ∉ pl.clients) (new : ∀ t ∈ n.server.transfers, t.sock ≠ sock) :
    ∀ d ∈ n.wire, d.src ≠ sock ∧ d.dst ≠ sock := by
  have notEnd : ∀ a, (sock, a) ∉ ends n.server.transfers := by
    intro a known
    obtain ⟨t, member, same⟩ := List.mem_map.mp known
    exact new t member (congrArg Prod.fst same)
  intro d sent
  cases inv.wire d sent with
  | request client listener =>
    exact ⟨fun same => notClient (same ▸ client), fun same => notHere (same ▸ listener)⟩
  | error listener client =>
    exact ⟨fun same => notHere (same ▸ listener), fun same => notClient (same ▸ client)⟩
  | packet known =>
    exact ⟨fun same => notEnd _ (same ▸ known), fun same => notClient (same ▸ inv.peers _ known)⟩
  | ack known =>
    exact ⟨fun same => notClient (same ▸ inv.peers _ known), fun same => notEnd _ (same ▸ known)⟩

/-- The other end of a socket is determined by the socket. -/
theorem same_transfer (inv : Inv pl n) {i j : Nat} {t u : Transfer}
    (here : n.server.transfers[i]? = some t) (there : n.server.transfers[j]? = some u)
    (same : t.sock = u.sock) : i = j := by
  have inside : i < (n.server.transfers.map Transfer.sock).length := by
    rw [List.length_map]
    exact (List.getElem?_eq_some_iff.mp here).1
  refine (List.getElem?_inj inside inv.distinct).mp ?_
  rw [List.getElem?_map, List.getElem?_map, here, there]
  exact congrArg some same

theorem peer_eq (inv : Inv pl n) {t : Transfer} {a : Bytes} (member : t ∈ n.server.transfers)
    (known : (t.sock, a) ∈ ends n.server.transfers) : t.peer = a := by
  obtain ⟨u, member', same⟩ := List.mem_map.mp known
  obtain ⟨i, here⟩ := List.mem_iff_getElem?.mp member
  obtain ⟨j, there⟩ := List.mem_iff_getElem?.mp member'
  have socks : t.sock = u.sock := (congrArg Prod.fst same).symm
  rw [inv.same_transfer here there socks, there] at here
  cases here
  exact congrArg Prod.snd same

/-! ## One event -/

/-- Something is sent that concerns no transfer. -/
theorem sends (inv : Inv pl n) {new : List Datagram}
    (transfers : n'.server.transfers = n.server.transfers) (terminals : n'.terminals = n.terminals)
    (wire : n'.wire = n.wire ++ new)
    (onWire : ∀ d ∈ new, OnWire pl (ends n.server.transfers) d)
    (other : ∀ d ∈ new, ∀ t ∈ n.server.transfers, d.src ≠ t.sock ∧ d.dst ≠ t.sock) :
    Inv pl n' := by
  refine ⟨?_, ?_, ?_, ?_, ?_, ?_, ?_⟩
  · rw [transfers]
    exact inv.peers
  · rw [transfers]
    exact inv.socks
  · rw [transfers]
    exact inv.distinct
  · rw [wire, transfers]
    intro d member
    rcases List.mem_append.mp member with old | fresh
    · exact inv.wire d old
    · exact onWire d fresh
  · rw [terminals]
    exact inv.idle
  · rw [terminals, transfers]
    exact inv.tids
  · rw [transfers]
    intro t member
    refine (inv.sessions t member).frame wire (fun d fresh => other d fresh t member) ?_
    rw [terminals]
    exact Or.inl rfl

/-- A datagram between a client and the listener concerns no transfer. -/
theorem apart_of_client (inv : Inv pl n) {t : Transfer} (member : t ∈ n.server.transfers)
    {a : Bytes} (client : a ∈ pl.clients) : a ≠ t.sock ∧ pl.here ≠ t.sock := by
  have own := inv.socks _ (mem_ends member)
  exact ⟨fun same => own.2 (same ▸ client), fun same => own.1 same.symm⟩

theorem request (inv : Inv pl n) {a : Bytes} (data : Bytes) (client : a ∈ pl.clients) :
    Inv pl { n with wire := n.wire ++ [⟨a, pl.here, data⟩] } := by
  refine inv.sends rfl rfl rfl ?_ ?_
  · intro d member
    rw [List.mem_singleton.mp member]
    exact OnWire.request client rfl
  · intro d member t live
    rw [List.mem_singleton.mp member]
    exact inv.apart_of_client live client

/-- A transfer is started. -/
theorem accepted (inv : Inv pl n) {sock addr : Bytes} {dial : Except Bytes Unit} {req : Rrq}
    {t : Transfer} {ws : List Bytes} (client : addr ∈ pl.clients) (notHere : sock ≠ pl.here)
    (notClient : sock ∉ pl.clients) (new : ∀ u ∈ n.server.transfers, u.sock ≠ sock)
    (started : Transfer.started pl.site pl.here sock addr dial req = (t, ws))
    (transfers : n'.server.transfers = n.server.transfers ++ [t])
    (terminals : n'.terminals = n.terminals) (wire : n'.wire = n.wire ++ t.sends ws) :
    Inv pl n' := by
  obtain ⟨rfl, rfl⟩ := ends_started started
  have more : ends n'.server.transfers = ends n.server.transfers ++ [(t.sock, t.peer)] := by
    rw [transfers]
    exact List.map_append
  have strange : ∀ a, (n.terminals a).tid ≠ some t.sock := by
    intro a known
    rcases inv.tids a t.sock known with ⟨same, _⟩ | member
    · exact notHere same
    · obtain ⟨u, live, same⟩ := List.mem_map.mp member
      exact new u live (congrArg Prod.fst same)
  refine ⟨?_, ?_, ?_, ?_, ?_, ?_, ?_⟩
  · rw [more, List.forall_mem_append]
    exact ⟨inv.peers, by simpa using client⟩
  · rw [more, List.forall_mem_append]
    exact ⟨inv.socks, by simpa using ⟨notHere, notClient⟩⟩
  · rw [transfers, List.map_append, List.nodup_append]
    refine ⟨inv.distinct, List.nodup_singleton _, ?_⟩
    intro s member s' single same
    obtain ⟨u, live, rfl⟩ := List.mem_map.mp member
    exact new u live (same.trans (List.mem_singleton.mp single))
  · rw [wire, more, List.forall_mem_append]
    refine ⟨fun d old => (inv.wire d old).mono (List.subset_append_left _ _), fun d member => ?_⟩
    obtain ⟨src, dst⟩ := ends_of_mem_sends member
    refine OnWire.packet ?_
    rw [src, dst]
    exact List.mem_append_right _ (List.mem_singleton_self _)
  · rw [terminals]
    exact inv.idle
  · rw [terminals, more]
    intro a s known
    exact (inv.tids a s known).imp id (List.mem_append_left _)
  · rw [transfers, List.forall_mem_append]
    constructor
    · intro u live
      refine (inv.sessions u live).frame wire ?_ (Or.inl (by rw [terminals]))
      intro d member
      obtain ⟨src, dst⟩ := ends_of_mem_sends member
      rw [src, dst]
      exact ⟨fun same => new u live same.symm, (inv.apart_of_client live client).1⟩
    · intro u single
      rw [List.mem_singleton.mp single]
      exact Session.begin started (fun same => notClient (same ▸ client))
        (inv.unused notHere notClient new) (strange _) terminals wire

/-- A transfer goes on. -/
theorem resumed (inv : Inv pl n) {i : Nat} {o : ReadOutcome} {t t' : Transfer} {ws : List Bytes}
    (found : n.server.transfers[i]? = some t) (resumed : t.resumed o = (t', ws))
    (arrived : ∀ d, o = .datagram d → Datagram.mk t.peer t.sock d ∈ n.wire)
    (transfers : n'.server.transfers = n.server.transfers.set i t')
    (terminals : n'.terminals = n.terminals) (wire : n'.wire = n.wire ++ t'.sends ws) :
    Inv pl n' := by
  have live : t ∈ n.server.transfers := List.mem_of_getElem? found
  have client := inv.peers _ (mem_ends live)
  obtain ⟨sock, peer⟩ := ends_resumed resumed
  have same : ends n'.server.transfers = ends n.server.transfers := by
    rw [transfers]
    exact Machine.map_set_of_eq found (by rw [sock, peer])
  refine ⟨?_, ?_, ?_, ?_, ?_, ?_, ?_⟩
  · rw [same]
    exact inv.peers
  · rw [same]
    exact inv.socks
  · rw [transfers, Machine.map_set_of_eq found sock]
    exact inv.distinct
  · rw [wire, same, List.forall_mem_append]
    refine ⟨inv.wire, fun d member => ?_⟩
    obtain ⟨src, dst⟩ := ends_of_mem_sends member
    exact OnWire.packet (by rw [src, dst, sock, peer]; exact mem_ends live)
  · rw [terminals]
    exact inv.idle
  · rw [terminals, same]
    exact inv.tids
  · rw [transfers]
    intro u member
    obtain ⟨j, there⟩ := List.mem_iff_getElem?.mp member
    by_cases here : i = j
    · subst here
      rw [List.getElem?_set_self (List.getElem?_eq_some_iff.mp found).1] at there
      cases there
      exact (inv.sessions t live).resume resumed arrived
        (fun same => (inv.socks _ (mem_ends live)).2 (same ▸ client)) terminals wire
    · rw [List.getElem?_set_ne here] at there
      have live' : u ∈ n.server.transfers := List.mem_of_getElem? there
      refine (inv.sessions u live').frame wire ?_ (Or.inl (by rw [terminals]))
      intro d member
      obtain ⟨src, dst⟩ := ends_of_mem_sends member
      rw [src, dst, sock, peer]
      exact ⟨fun same => here (inv.same_transfer found there same),
        (inv.apart_of_client live' client).1⟩

/-- A datagram reaches a client that listens to where it comes from. -/
theorem takes (inv : Inv pl n) {d : Datagram} (sent : d ∈ n.wire) (client : d.dst ∈ pl.clients)
    {client' : Client} {ws : List Bytes}
    (open' : (n.terminals d.dst).tid = none ∨ (n.terminals d.dst).tid = some d.src)
    (received : (n.terminals d.dst).client.receive d.data = (client', ws)) :
    Inv pl ⟨n.server, Function.update n.terminals d.dst ⟨some d.src, client'⟩,
      n.wire ++ ws.map (fun p => ⟨d.dst, d.src, p⟩)⟩ := by
  -- a transfer on another socket does not see that client
  have away : ∀ t : Transfer, t.sock ≠ d.src →
      Function.update n.terminals d.dst ⟨some d.src, client'⟩ t.peer = n.terminals t.peer ∨
      (n.terminals t.peer).tid ≠ some t.sock ∧
        (Function.update n.terminals d.dst ⟨some d.src, client'⟩ t.peer).tid ≠ some t.sock := by
    intro t other
    by_cases mine : t.peer = d.dst
    · rw [mine, Function.update_self]
      refine Or.inr ⟨?_, fun same => other (Option.some.inj same).symm⟩
      rcases open' with none | same
      · rw [none]
        simp
      · rw [same]
        exact fun same => other (Option.some.inj same).symm
    · exact Or.inl (Function.update_of_ne mine _ _)
  have idle : ∀ a, (Function.update n.terminals d.dst ⟨some d.src, client'⟩ a).tid = none →
      (Function.update n.terminals d.dst ⟨some d.src, client'⟩ a).client = Client.start := by
    intro a none
    by_cases mine : a = d.dst
    · rw [mine, Function.update_self] at none
      cases none
    · rw [Function.update_of_ne mine] at none ⊢
      exact inv.idle a none
  rcases inv.to_client sent client with ⟨listener, opcode⟩ | known
  · -- an ERROR from the listener: the client stops, and answers nothing
    rw [receive_error _ opcode] at received
    obtain ⟨rfl, rfl⟩ := Prod.mk.inj received
    refine ⟨inv.peers, inv.socks, inv.distinct, ?_, idle, ?_, ?_⟩
    · rw [List.map_nil, List.append_nil]
      exact inv.wire
    · intro a s tid
      simp only at tid ⊢
      by_cases mine : a = d.dst
      · subst mine
        rw [Function.update_self] at tid ⊢
        cases tid
        refine Or.inl ⟨listener, ?_⟩
        rcases open' with none | same
        · rw [inv.idle _ none]
          rfl
        · rcases inv.tids _ _ same with ⟨_, nothing⟩ | known
          · exact nothing
          · exact absurd listener (inv.socks _ known).1
      · rw [Function.update_of_ne mine] at tid ⊢
        exact inv.tids a s tid
    · intro t live
      refine (inv.sessions t live).frame rfl (by simp) (away t ?_)
      rw [listener]
      exact (inv.socks _ (mem_ends live)).1
  · refine ⟨inv.peers, inv.socks, inv.distinct, ?_, idle, ?_, ?_⟩
    · refine List.forall_mem_append.mpr ⟨inv.wire, fun d' member => ?_⟩
      obtain ⟨_, _, rfl⟩ := List.mem_map.mp member
      exact OnWire.ack known
    · intro a s tid
      simp only at tid ⊢
      by_cases mine : a = d.dst
      · subst mine
        rw [Function.update_self] at tid ⊢
        cases tid
        exact Or.inr known
      · rw [Function.update_of_ne mine] at tid ⊢
        exact inv.tids a s tid
    · intro t live
      by_cases same : t.sock = d.src
      · have peer : t.peer = d.dst := inv.peer_eq live (same ▸ known)
        have apart : t.peer ≠ t.sock := (inv.apart_of_client live (peer ▸ client)).1
        rw [← peer, ← same] at open' ⊢
        rw [← peer] at received
        refine (inv.sessions t live).deliver sent same.symm peer.symm apart ?_ received
          (Function.update_self ..) rfl
        exact open'.imp (fun none => ⟨none, inv.idle _ none⟩) id
      · refine (inv.sessions t live).frame rfl (fun d' member => ?_) (away t same)
        obtain ⟨_, _, rfl⟩ := List.mem_map.mp member
        exact ⟨(inv.apart_of_client live client).1, fun other => same other.symm⟩

theorem arrives (inv : Inv pl n) {d : Datagram} (sent : d ∈ n.wire) (client : d.dst ∈ pl.clients) :
    Inv pl (n.arrives d) := by
  unfold Network.arrives Terminal.receive
  by_cases listens : (n.terminals d.dst).tid = none ∨ (n.terminals d.dst).tid = some d.src
  · rw [if_pos listens]
    exact inv.takes sent client listens rfl
  · rw [if_neg listens]
    refine inv.sends rfl (Function.update_eq_self ..) rfl ?_ ?_
    · exact fun d' member => absurd member List.not_mem_nil
    · exact fun d' member => absurd member List.not_mem_nil

theorem wakes (inv : Inv pl n) {w : Wake}
    (sent : ∀ d, Wire.received d ∈ (n.server.wake pl.site pl.here w).2 → d ∈ n.wire)
    (fresh : n.Fresh pl w) : Inv pl (n.wakes pl w) := by
  have woken := n.server.wake_woken pl.site pl.here w
  unfold Network.wakes
  generalize (n.server.wake pl.site pl.here w) = r at woken sent ⊢
  obtain ⟨server, trace⟩ := r
  generalize changed : server.transfers = ts at woken
  cases woken with
  | failed => exact inv.sends changed rfl rfl (by simp [sentIn]) (by simp [sentIn])
  | nobody => exact inv.sends changed rfl rfl (by simp [sentIn]) (by simp [sentIn])
  | rejected addr data sock dial err =>
    have client := inv.client_of_here (sent _ List.mem_cons_self) rfl
    refine inv.sends changed rfl rfl ?_ ?_
    · intro d member
      rw [List.mem_singleton.mp member]
      exact OnWire.error rfl client (uint16_mkError _)
    · intro d member t live
      rw [List.mem_singleton.mp member]
      exact (inv.apart_of_client live client).symm
  | accepted addr data sock dial req t ws parsed started =>
    obtain ⟨notHere, notClient, new⟩ := fresh
    have client := inv.client_of_here (sent _ List.mem_cons_self) rfl
    refine inv.accepted client notHere notClient new started changed rfl ?_
    show n.wire ++ sentIn ((t.sends ws).map .sent) = _
    rw [sentIn_map]
  | resumed i o t t' ws found resumed =>
    refine inv.resumed found resumed ?_ changed rfl ?_
    · rintro d rfl
      exact sent _ (List.mem_append_left _ (List.mem_singleton_self _))
    · show n.wire ++ sentIn (t.heard o ++ (t'.sends ws).map .sent) = _
      rw [sentIn_heard, sentIn_map]

end Inv

theorem inv_start : Inv pl Network.start := by
  refine ⟨?_, ?_, List.nodup_nil, ?_, fun _ _ => rfl, ?_, ?_⟩
  · exact fun _ member => absurd member List.not_mem_nil
  · exact fun _ member => absurd member List.not_mem_nil
  · exact fun _ member => absurd member List.not_mem_nil
  · intro a s known
    cases known
  · exact fun _ member => absurd member List.not_mem_nil

theorem inv_step (n n' : Network) (inv : Inv pl n) (step : Step pl n n') : Inv pl n' := by
  cases step with
  | request a data client => exact inv.request data client
  | wakes w sent fresh => exact inv.wakes sent fresh
  | arrives d sent client => exact inv.arrives sent client

/-- Only block sizes of at least eight bytes reach a transfer. -/
theorem bsize_step (n n' : Network) (large : ∀ t ∈ n.server.transfers, 8 ≤ t.req.bsize)
    (step : Step pl n n') : ∀ t ∈ n'.server.transfers, 8 ≤ t.req.bsize := by
  cases step with
  | request => exact large
  | arrives => exact large
  | wakes w _ _ =>
    have woken := n.server.wake_woken pl.site pl.here w
    simp only [Network.wakes]
    generalize (n.server.wake pl.site pl.here w).1.transfers = ts,
      (n.server.wake pl.site pl.here w).2 = trace at woken
    cases woken with
    | failed => exact large
    | nobody => exact large
    | rejected => exact large
    | accepted addr data sock dial req t ws parsed started =>
      refine List.forall_mem_append.mpr ⟨large, fun u single => ?_⟩
      unfold Transfer.started at started
      obtain ⟨rfl, _⟩ := Prod.mk.inj started
      rw [List.mem_singleton.mp single]
      exact eight_le_bsize parsed
    | resumed i o t t' ws found resumed =>
      intro u member
      rw [resumed_eq] at resumed
      obtain ⟨rfl, _⟩ := Prod.mk.inj resumed
      rcases List.mem_or_eq_of_mem_set member with old | rfl
      · exact large u old
      · exact large t (List.mem_of_getElem? found)

end Network

/-! ## Agreement -/

/-- A client that has taken the transfer for its own has a beginning of the file, and all of it
once the transfer is done; it is not done before there is such a client. -/
theorem Network.Session.agree {pl : Place} {n : Network} {t : Transfer} {content : Bytes}
    (session : Network.Session pl n t)
    (opened : pl.site.handler pl.here t.req.filename t.peer = .ok ⟨content, .eof⟩)
    (few : content.length ≤ 65535 * t.req.bsize) :
    ((n.terminals t.peer).tid = some t.sock →
      (n.terminals t.peer).client.accepted <+: content) ∧
    (t.state = .returned .sent → (n.terminals t.peer).tid = some t.sock ∧
      (n.terminals t.peer).client.accepted = content) := by
  cases session with
  | noSocket text ended silent unknown =>
    refine ⟨fun known => absurd known unknown, fun sent => ?_⟩
    rw [ended] at sent
    cases sent
  | alone reach =>
    obtain ⟨c, inv, server, traffic⟩ := describes_of_reach opened few reach
    have next := traffic.next
    have accepted := traffic.accepted
    simp only [Network.between] at server next accepted
    refine ⟨fun known => ?_, fun sent => ?_⟩
    · rw [if_pos known] at accepted
      rw [accepted]
      exact List.take_prefix _ _
    · rw [sent] at server
      have whole : (c.cur - 1) * t.req.bsize ≤ (c.got - 1) * t.req.bsize :=
        Nat.mul_le_mul_right _ (Nat.sub_le_sub_right inv.behind 1)
      -- some block was acknowledged, so the client is no longer at its start
      have known : (n.terminals t.peer).tid = some t.sock := by
        by_contra other
        rw [if_neg other] at next
        have first : c.got - 1 = 0 := by
          have one : Client.start.next = 1 := rfl
          omega
        rw [first, Nat.zero_mul] at whole
        exact absurd (Nat.lt_of_lt_of_le server whole) (Nat.not_lt_zero _)
      rw [if_pos known] at accepted
      refine ⟨known, accepted.trans (List.take_of_length_le ?_)⟩
      exact Nat.le_trans (Nat.le_of_lt server) whole

/-- Any number of clients load the one file of the server at once, over a network that loses,
repeats, delays and reorders every datagram, requests included. At any time each client whose
transfer has no more blocks than there are block numbers has accepted a beginning of the file, and
whenever such a transfer has reported success, the client it is for has taken that transfer for
its own and has the whole file. Blocks have at least eight bytes. -/
theorem terminals_agree (pl : Place) (content : Bytes)
    (served : pl.site.handler pl.here = blob content)
    (n : Network) (reach : ReflTransGen (Network.Step pl) Network.start n) :
    (∀ a, (∀ t ∈ n.server.transfers, t.peer = a → (n.terminals a).tid = some t.sock →
        content.length ≤ 65535 * t.req.bsize) →
      (n.terminals a).client.accepted <+: content) ∧
    ∀ t ∈ n.server.transfers, 8 ≤ t.req.bsize ∧
      (content.length ≤ 65535 * t.req.bsize → t.state = .returned .sent →
        (n.terminals t.peer).tid = some t.sock ∧
          (n.terminals t.peer).client.accepted = content) := by
  have inv := invariant_of_reachable (Network.inv_step pl) (Network.inv_start pl) reach
  have large := invariant_of_reachable (Network.bsize_step pl)
    (s := Network.start) (fun _ member => absurd member List.not_mem_nil) reach
  have opened : ∀ t : Transfer, pl.site.handler pl.here t.req.filename t.peer =
      .ok ⟨content, .eof⟩ := by
    intro t
    rw [served]
    rfl
  have agree := fun t live => (inv.sessions t live).agree (opened t)
  refine ⟨fun a few => ?_, fun t live => ⟨large t live, fun few => (agree t live few).2⟩⟩
  rcases tid : (n.terminals a).tid with _ | s
  · rw [inv.idle a tid]
    exact List.nil_prefix
  · rcases inv.tids a s tid with ⟨_, nothing⟩ | known
    · rw [nothing]
      exact List.nil_prefix
    · obtain ⟨t, live, same⟩ := List.mem_map.mp known
      obtain ⟨rfl, rfl⟩ := Prod.mk.inj same
      exact (agree t live (few t live rfl tid)).1 tid

/-- A server with one file of three bytes, and one client. -/
def oneClient : Place where
  site := { listeners := [ascii "10.0.0.1:69"], handler := fun _ => blob (ascii "abc"),
            quote := ⟨id, itoa⟩ }
  here := ascii "10.0.0.1:69"
  clients := [ascii "10.0.0.2:2000"]
  apart := by decide

/-- The client asks for the file, and every datagram is delivered once. -/
def loaded : Network :=
  let request : Bytes := [0, 1] ++ ascii "f" ++ [0] ++ ascii "octet" ++ [0]
  let n := { Network.start with wire := [⟨ascii "10.0.0.2:2000", ascii "10.0.0.1:69", request⟩] }
  let n := n.wakes oneClient
    (.listener (.datagram (ascii "10.0.0.2:2000") request) (ascii "10.0.0.1:4000") (.ok ()))
  let n := n.arrives ⟨ascii "10.0.0.1:4000", ascii "10.0.0.2:2000", [0, 3, 0, 1] ++ ascii "abc"⟩
  n.wakes oneClient (.transfer 0 (.datagram [0, 4, 0, 1]))

theorem received_of_all {trace : List Wire} {wire : List Datagram}
    (all : trace.all (fun w => match w with | .received d => wire.contains d | .sent _ => true)) :
    ∀ d, Wire.received d ∈ trace → d ∈ wire := by
  intro d member
  simpa using List.all_eq_true.mp all _ member

theorem reach_loaded : ReflTransGen (Network.Step oneClient) Network.start loaded := by
  refine ReflTransGen.head (Network.Step.request _ (ascii "10.0.0.2:2000")
    ([0, 1] ++ ascii "f" ++ [0] ++ ascii "octet" ++ [0]) (by decide)) ?_
  refine ReflTransGen.head (Network.Step.wakes _ (.listener (.datagram (ascii "10.0.0.2:2000")
    ([0, 1] ++ ascii "f" ++ [0] ++ ascii "octet" ++ [0])) (ascii "10.0.0.1:4000") (.ok ()))
    ?_ ⟨by decide, by decide, fun _ member => absurd member List.not_mem_nil⟩) ?_
  · exact received_of_all (by decide +kernel)
  refine ReflTransGen.head (Network.Step.arrives _
    ⟨ascii "10.0.0.1:4000", ascii "10.0.0.2:2000", [0, 3, 0, 1] ++ ascii "abc"⟩ ?_ (by decide)) ?_
  · decide +kernel
  refine ReflTransGen.single
    (Network.Step.wakes _ (.transfer 0 (.datagram [0, 4, 0, 1])) ?_ trivial)
  exact received_of_all (by decide +kernel)

theorem terminals_agree_loaded :
    (loaded.terminals (ascii "10.0.0.2:2000")).tid = some (ascii "10.0.0.1:4000") ∧
      (loaded.terminals (ascii "10.0.0.2:2000")).client.accepted = ascii "abc" := by
  have agree := terminals_agree oneClient (ascii "abc") rfl loaded reach_loaded
  have ends : ∃ t ∈ loaded.server.transfers, t.state = .returned .sent ∧
      t.sock = ascii "10.0.0.1:4000" ∧ t.peer = ascii "10.0.0.2:2000" := by decide +kernel
  obtain ⟨t, live, sent, sock, peer⟩ := ends
  obtain ⟨large, success⟩ := agree.2 t live
  have few : (ascii "abc").length ≤ 65535 * t.req.bsize := by
    have three : (ascii "abc").length = 3 := rfl
    omega
  have whole := success few sent
  rwa [sock, peer] at whole

end Pixiecore.Tftp
