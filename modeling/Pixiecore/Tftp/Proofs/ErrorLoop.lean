import Mathlib.Algebra.GroupWithZero.Nat
import Pixiecore.Misc.Transition
import Pixiecore.Tftp.Proofs.Step
import Pixiecore.Tftp.Serve

/-!
# ERROR packets between listeners

`Serve` answers everything that `parseRRQ` rejects with an ERROR packet, ERROR packets
included. One rejected datagram whose source and destination are both listeners therefore
starts an exchange of ERROR packets that need never end. Without such a datagram the
listeners send finitely many: an accepted request costs at most the five copies of the one
packet its transfer sends before it is answered or gives up.
-/

namespace Pixiecore.Tftp

open Transition

/-! ## What a transfer can still write -/

/-- Neither a request, which a listener would accept, nor an ACK, which would make a transfer
go on. -/
def Quiet (p : Bytes) : Prop := uint16 p ≠ 1 ∧ uint16 p ≠ 4

/-- The retransmissions that are left for the current packet. -/
def budget {bsize : Nat} : State bsize → Nat
  | .sending _ w => 4 - w.tries
  | .returned _ => 0

/-- At most one packet was written, a quiet one, and the transfer can write `n` in all without
an ACK. -/
def WritesWithin {bsize : Nat} (n : Nat) (r : State bsize × List Bytes) : Prop :=
  budget r.1 + r.2.length ≤ n ∧ ∀ p ∈ r.2, Quiet p

theorem quiet_of_opcode {p : Bytes} {n : UInt16} (opcode : uint16 p = n)
    (notRRQ : n ≠ 1) (notACK : n ≠ 4) : Quiet p := by
  rw [← opcode] at notRRQ notACK
  exact ⟨notRRQ, notACK⟩

theorem quiet_mkError (s : Bytes) : Quiet (mkError s) :=
  quiet_of_opcode (uint16_mkError s) (by decide) (by decide)

theorem quiet_oack (req : Rrq) : Quiet (oack req) :=
  quiet_of_opcode (uint16_oack req) (by decide) (by decide)

theorem quiet_packet {bsize : Nat} (blk : Block bsize) : Quiet blk.packet := by
  refine quiet_of_opcode (n := 3) ?_ (by decide) (by decide)
  rw [Block.packet, uint16_take _ _ (by omega), ← uint16_take _ 2 (by omega), blk.buf.opcode]
  rfl

theorem writesWithin_one {bsize : Nat} {s : State bsize} {p : Bytes} (few : budget s ≤ 4)
    (quiet : Quiet p) : WritesWithin 5 (s, [p]) := by
  refine ⟨Nat.succ_le_succ few, ?_⟩
  intro p' member
  rw [List.mem_singleton.mp member]
  exact quiet

theorem writesWithin_returned {bsize : Nat} (n : Nat) (res : Result) :
    WritesWithin n ((.returned res, []) : State bsize × List Bytes) :=
  ⟨Nat.zero_le _, fun _ member => absurd member List.not_mem_nil⟩

theorem blockLoop_writesWithin (req : Rrq) (f : Reader) (seq : UInt16) (buf : Buf req.bsize) :
    WritesWithin 5 (blockLoop req f seq buf) := by
  rcases read : readFull f req.bsize with ⟨data, rest, err⟩
  by_cases goes : err = none ∨ err = some .unexpectedEOF
  · rw [blockLoop_sends req seq buf read goes]
    exact writesWithin_one (Nat.le_refl 4) (quiet_packet _)
  · obtain ⟨e, rfl⟩ : ∃ e, err = some e :=
      Option.ne_none_iff_exists'.mp (fun none => goes (Or.inl none))
    rw [blockLoop_fails req seq buf read (fun cut => goes (Or.inr (congrArg some cut)))]
    exact writesWithin_one (Nat.zero_le 4) (quiet_mkError _)

theorem transferStart_writesWithin (req : Rrq) (dial : Except Bytes Unit) (addr : Bytes)
    (handler : Handler) : WritesWithin 5 (transferStart req dial addr handler) := by
  unfold transferStart
  split
  · exact writesWithin_returned 5 _
  · split
    · exact writesWithin_one (Nat.zero_le 4) (quiet_mkError _)
    · split
      · exact writesWithin_one (Nat.le_refl 4) (quiet_oack req)
      · exact blockLoop_writesWithin ..

theorem afterAck_writesWithin (req : Rrq) (ph : Phase req.bsize) :
    WritesWithin 5 (afterAck req ph) := by
  unfold afterAck
  split
  · exact blockLoop_writesWithin ..
  · split
    · exact writesWithin_returned 5 _
    · exact blockLoop_writesWithin ..

/-- What a read outcome can add to the packets a transfer may write. -/
def worth : ReadOutcome → Nat
  | .datagram d => if uint16 d = 4 then 5 else 0
  | _ => 0

theorem resume_writesWithin (req : Rrq) (s : State req.bsize) (o : ReadOutcome) :
    WritesWithin (budget s + worth o) (resume req s o) := by
  cases s with
  | returned res => exact writesWithin_returned _ res
  | sending ph w =>
    rcases resume_cases req ph w o with
      ⟨d, rfl, ack, e⟩ | ⟨w', ignored, same, e⟩ | ⟨w', rfl, more, e⟩ | ⟨err, aborts, e⟩
    · obtain ⟨few, quiet⟩ := afterAck_writesWithin req ph
      rw [e, worth, if_pos ack.2.1]
      exact ⟨Nat.le_trans few (Nat.le_add_left 5 _), quiet⟩
    · rw [e]
      refine ⟨?_, fun _ member => absurd member List.not_mem_nil⟩
      simp only [budget, same, List.length_nil]
      omega
    · rw [e]
      have left := w'.tries_lt
      unfold numRetries at left
      refine ⟨?_, ?_⟩
      · simp only [budget, List.length_singleton]
        omega
      · intro p member
        rw [List.mem_singleton.mp member]
        cases ph with
        | oack f => exact quiet_oack req
        | data blk => exact quiet_packet blk
    · rw [e]
      exact writesWithin_returned _ _

/-! ## The potential of a network -/

/-- What a datagram can still make the listeners send. -/
def weight (site : Site) (d : Datagram) : Nat :=
  if d.dst ∈ site.listeners then
    match verdict d with
    | .ok _ => 6
    | .error _ => 1
  else if uint16 d.data = 4 then 5 else 0

def potential (site : Site) (lan : Lan) : Nat :=
  (lan.flight.map (weight site)).sum + (lan.transfers.map (fun t => budget t.state)).sum

/-- No rejected datagram is on its way from one listener to another. -/
structure Calm (site : Site) (lan : Lan) : Prop where
  flight : ∀ d ∈ lan.flight, d.src ∈ site.listeners → d.dst ∈ site.listeners →
    ∃ req, verdict d = .ok req
  transfers : ∀ t ∈ lan.transfers, t.sock ∉ site.listeners

section Potential

variable {site : Site}

theorem weight_quiet {d : Datagram} (quiet : Quiet d.data) : weight site d ≤ 1 := by
  unfold weight
  split
  · split
    · rename_i req accepted
      exact absurd (verdict_opcode accepted) quiet.1
    · exact Nat.le_refl 1
  · rw [if_neg quiet.2]
    exact Nat.zero_le 1

theorem sum_weight_sends (site : Site) (t : Transfer) {ws : List Bytes}
    (quiet : ∀ p ∈ ws, Quiet p) :
    ((t.sends ws).map (weight site)).sum ≤ ws.length := by
  induction ws with
  | nil => exact Nat.le_refl 0
  | cons p ws ih =>
    have first : weight site ⟨t.sock, t.peer, p⟩ ≤ 1 :=
      weight_quiet (quiet p List.mem_cons_self)
    have rest := ih (fun p' member => quiet p' (List.mem_cons_of_mem p member))
    simp only [Transfer.sends, List.map_cons, List.sum_cons, List.length_cons] at rest ⊢
    omega

theorem mem_sends {t : Transfer} {ws : List Bytes} {d : Datagram} (h : d ∈ t.sends ws) :
    d.src = t.sock := by
  obtain ⟨p, _, rfl⟩ := List.mem_map.mp h
  rfl

/-- A listener that writes a datagram writes an ERROR, back to where the rejected one came
from. -/
theorem serveRound_writeTo {q : Quote} {buf buf' addr p : Bytes} {d : Datagram}
    (size : buf.length = bufSize)
    (round : serveRound q buf (.datagram d.src d.data) = (buf', .writeTo addr p)) :
    addr = d.src ∧ ∃ err, verdict d = .error err ∧ p = mkError (err.text q) := by
  have answer := serveRound_datagram q size d.src d.data
  rw [round] at answer
  rcases parsed : parseRRQ d.src (d.data.take bufSize) with err | req
  · rw [parsed] at answer
    injection answer with back text
    exact ⟨back, err, parsed, text⟩
  · rw [parsed] at answer
    cases answer

theorem serveRound_transfer {q : Quote} {buf buf' addr : Bytes} {req : Rrq} {d : Datagram}
    (size : buf.length = bufSize)
    (round : serveRound q buf (.datagram d.src d.data) = (buf', .transfer addr req)) :
    verdict d = .ok req := by
  have answer := serveRound_datagram q size d.src d.data
  rw [round] at answer
  rcases parsed : parseRRQ d.src (d.data.take bufSize) with err | req'
  · rw [parsed] at answer
    cases answer
  · rw [parsed] at answer
    injection answer with _ same
    rw [same]
    exact parsed

theorem weight_rejected {d : Datagram} {err : Error} (here : d.dst ∈ site.listeners)
    (rejected : verdict d = .error err) : weight site d = 1 := by
  rw [weight, if_pos here, rejected]

theorem weight_accepted {d : Datagram} {req : Rrq} (here : d.dst ∈ site.listeners)
    (accepted : verdict d = .ok req) : weight site d = 6 := by
  rw [weight, if_pos here, accepted]

theorem worth_le_weight {d : Datagram} (elsewhere : d.dst ∉ site.listeners) :
    worth (.datagram d.data) ≤ weight site d := by
  rw [weight, if_neg elsewhere, worth]

theorem started_spec {listener sock peer : Bytes} {dial : Except Bytes Unit} {req : Rrq}
    {t : Transfer} {ws : List Bytes}
    (started : Transfer.started site listener sock peer dial req = (t, ws)) :
    t.sock = sock ∧ budget t.state + ws.length ≤ 5 ∧ ∀ p ∈ ws, Quiet p := by
  have within := transferStart_writesWithin req dial peer (site.handler listener)
  unfold Transfer.started at started
  cases started
  exact ⟨rfl, within⟩

theorem resumed_spec {t t' : Transfer} {o : ReadOutcome} {ws : List Bytes}
    (resumed : t.resumed o = (t', ws)) :
    t'.sock = t.sock ∧ budget t'.state + ws.length ≤ budget t.state + worth o ∧
      ∀ p ∈ ws, Quiet p := by
  have within := resume_writesWithin t.req t.state o
  unfold Transfer.resumed at resumed
  cases resumed
  exact ⟨rfl, within⟩

/-- A network stays calm when a datagram is replaced by calm ones. -/
theorem Calm.replace {before after new : List Datagram} {d : Datagram} {ts ts' : List Transfer}
    (calm : Calm site ⟨before ++ d :: after, ts⟩)
    (calmer : ∀ d' ∈ new, d'.src ∈ site.listeners → d'.dst ∈ site.listeners →
      ∃ req, verdict d' = .ok req)
    (transfers : ∀ t ∈ ts', t.sock ∉ site.listeners) :
    Calm site ⟨before ++ after ++ new, ts'⟩ := by
  refine ⟨?_, transfers⟩
  intro d' member
  rcases List.mem_append.mp member with old | fresh
  · refine calm.flight d' ?_
    rcases List.mem_append.mp old with front | back
    · exact List.mem_append_left _ front
    · exact List.mem_append_right _ (List.mem_cons_of_mem d back)
  · exact calmer d' fresh

theorem calm_sends {t : Transfer} {ws : List Bytes} (elsewhere : t.sock ∉ site.listeners) :
    ∀ d ∈ t.sends ws, d.src ∈ site.listeners → d.dst ∈ site.listeners →
      ∃ req, verdict d = .ok req := by
  intro d member listening
  rw [mem_sends member] at listening
  exact absurd listening elsewhere

theorem sock_swap {ts ts' : List Transfer} {t t' : Transfer} (same : t'.sock = t.sock)
    (old : ∀ u ∈ ts ++ t :: ts', u.sock ∉ site.listeners) :
    ∀ u ∈ ts ++ t' :: ts', u.sock ∉ site.listeners := by
  intro u member
  rcases List.mem_append.mp member with front | rest
  · exact old u (List.mem_append_left _ front)
  · rcases List.mem_cons.mp rest with rfl | back
    · rw [same]
      exact old t (List.mem_append_right _ List.mem_cons_self)
    · exact old u (List.mem_append_right _ (List.mem_cons_of_mem t back))

/-- In a calm network a rejected datagram does not come from a listener. -/
theorem Calm.src_notMem {lan : Lan} (calm : Calm site lan) {d : Datagram} {err : Error}
    (member : d ∈ lan.flight) (here : d.dst ∈ site.listeners)
    (rejected : verdict d = .error err) : d.src ∉ site.listeners := by
  intro back
  obtain ⟨req, accepted⟩ := calm.flight d member back here
  rw [rejected] at accepted
  cases accepted

theorem calm_step (lan : Lan) (marked : Bool) (lan' : Lan) (calm : Calm site lan)
    (step : Lan.Step site lan marked lan') : Calm site lan' := by
  have transfers := calm.transfers
  cases step with
  | idle => exact calm
  | lost before after d ts =>
    have fewer : Calm site ⟨before ++ after ++ [], ts⟩ :=
      calm.replace (fun _ member => absurd member List.not_mem_nil) transfers
    rwa [List.append_nil] at fewer
  | answered before after d ts buf buf' addr p here size round =>
    obtain ⟨rfl, err, rejected, rfl⟩ := serveRound_writeTo size round
    refine calm.replace ?_ transfers
    intro d' member _ back
    rw [List.mem_singleton.mp member] at back
    exact absurd back
      (calm.src_notMem (List.mem_append_right _ List.mem_cons_self) here rejected)
  | accepted before after d ts buf buf' addr sock req dial t ws here size round fresh started =>
    obtain ⟨rfl, _, _⟩ := started_spec started
    refine calm.replace (calm_sends fresh) ?_
    intro u member
    rcases List.mem_append.mp member with old | new
    · exact transfers u old
    · rw [List.mem_singleton.mp new]
      exact fresh
  | arrived before after d ts ts' t t' ws here connected resumed =>
    obtain ⟨same, _, _⟩ := resumed_spec resumed
    have elsewhere := sock_swap same transfers
    exact calm.replace (calm_sends (elsewhere t' (by simp))) elsewhere
  | noDatagram fl ts ts' t t' ws o none resumed =>
    obtain ⟨same, _, _⟩ := resumed_spec resumed
    have elsewhere := sock_swap same transfers
    refine ⟨?_, elsewhere⟩
    intro d member
    rcases List.mem_append.mp member with old | new
    · exact calm.flight d old
    · exact calm_sends (elsewhere t' (by simp)) d new

/-- What the potential gains and loses when a datagram is replaced by others. -/
theorem potential_replace (site : Site) (before after new : List Datagram) (d : Datagram)
    (ts : List Transfer) :
    potential site ⟨before ++ after ++ new, ts⟩ + weight site d =
      potential site ⟨before ++ d :: after, ts⟩ + (new.map (weight site)).sum := by
  simp only [potential, List.map_append, List.sum_append, List.map_cons, List.sum_cons]
  omega

theorem potential_send (site : Site) (flight new : List Datagram) (ts : List Transfer) :
    potential site ⟨flight ++ new, ts⟩ =
      potential site ⟨flight, ts⟩ + (new.map (weight site)).sum := by
  simp only [potential, List.map_append, List.sum_append]
  omega

theorem potential_begin (site : Site) (flight : List Datagram) (ts : List Transfer) (t : Transfer) :
    potential site ⟨flight, ts ++ [t]⟩ = potential site ⟨flight, ts⟩ + budget t.state := by
  simp only [potential, List.map_append, List.sum_append, List.map_singleton, List.sum_singleton]
  omega

/-- What the potential gains and loses when a transfer goes on. -/
theorem potential_swap (site : Site) (flight : List Datagram) (ts ts' : List Transfer)
    (t t' : Transfer) :
    potential site ⟨flight, ts ++ t' :: ts'⟩ + budget t.state =
      potential site ⟨flight, ts ++ t :: ts'⟩ + budget t'.state := by
  simp only [potential, List.map_append, List.sum_append, List.map_cons, List.sum_cons]
  omega

/-- Every event is paid for, and an ERROR from a listener costs one. -/
theorem potential_step (lan : Lan) (marked : Bool) (lan' : Lan) (calm : Calm site lan)
    (step : Lan.Step site lan marked lan') :
    potential site lan' + marked.toNat ≤ potential site lan := by
  cases step with
  | idle => exact Nat.le_refl _
  | lost before after d ts =>
    have gone := potential_replace site before after [] d ts
    rw [List.append_nil, List.map_nil, List.sum_nil] at gone
    rw [Bool.toNat_false]
    omega
  | answered before after d ts buf buf' addr p here size round =>
    obtain ⟨rfl, err, rejected, rfl⟩ := serveRound_writeTo size round
    have cost := weight_rejected here rejected
    have away := calm.src_notMem (List.mem_append_right _ List.mem_cons_self) here rejected
    have reply : weight site ⟨d.dst, d.src, mkError (err.text site.quote)⟩ = 0 := by
      rw [weight, if_neg away, if_neg (quiet_mkError _).2]
    have replaced := potential_replace site before after
      [⟨d.dst, d.src, mkError (err.text site.quote)⟩] d ts
    rw [List.map_singleton, List.sum_singleton, reply] at replaced
    rw [Bool.toNat_true]
    omega
  | accepted before after d ts buf buf' addr sock req dial t ws here size round fresh started =>
    have cost := weight_accepted here (serveRound_transfer size round)
    obtain ⟨_, few, quiet⟩ := started_spec started
    have sends := sum_weight_sends site t quiet
    have replaced := potential_replace site before after (t.sends ws) d ts
    rw [potential_begin, Bool.toNat_false]
    omega
  | arrived before after d ts ts' t t' ws here connected resumed =>
    obtain ⟨_, few, quiet⟩ := resumed_spec resumed
    have sends := sum_weight_sends site t' quiet
    have elsewhere : d.dst ∉ site.listeners := by
      rw [here]
      exact calm.transfers t (List.mem_append_right _ List.mem_cons_self)
    have cost := worth_le_weight elsewhere
    have replaced := potential_replace site before after (t'.sends ws) d (ts ++ t :: ts')
    have swapped := potential_swap site (before ++ after ++ t'.sends ws) ts ts' t t'
    rw [Bool.toNat_false]
    omega
  | noDatagram fl ts ts' t t' ws o none resumed =>
    obtain ⟨_, few, quiet⟩ := resumed_spec resumed
    have sends := sum_weight_sends site t' quiet
    have free : worth o = 0 := by
      cases o with
      | datagram d => exact absurd rfl (none d)
      | timeout => rfl
      | failed text => rfl
    have sent := potential_send site fl (t'.sends ws) (ts ++ t :: ts')
    have swapped := potential_swap site (fl ++ t'.sends ws) ts ts' t t'
    rw [Bool.toNat_false]
    omega

end Potential

/-! ## The loop -/

/-- Anything but a request is rejected, an ERROR packet in particular. -/
theorem verdict_of_opcode {d : Datagram} (other : uint16 d.data ≠ 1) :
    ∃ err, verdict d = .error err := by
  rcases parsed : verdict d with err | req
  · exact ⟨err, rfl⟩
  · exact absurd (verdict_opcode parsed) other

/-- A rejected datagram is on its way from one listener to another. -/
def Bouncing (site : Site) (lan : Lan) : Prop :=
  ∃ d ∈ lan.flight, d.src ∈ site.listeners ∧ d.dst ∈ site.listeners ∧
    ∃ err, verdict d = .error err

/-- The answer to a bouncing datagram is a bouncing datagram. -/
theorem bouncing_again (site : Site) (lan : Lan) (bouncing : Bouncing site lan) :
    ∃ lan', Lan.Step site lan true lan' ∧ Bouncing site lan' := by
  obtain ⟨flight, ts⟩ := lan
  obtain ⟨d, member, back, here, err, rejected⟩ := bouncing
  obtain ⟨before, after, split⟩ := List.append_of_mem member
  simp only at split
  subst split
  have size : (List.replicate bufSize (0 : UInt8)).length = bufSize := List.length_replicate
  have answer := serveRound_datagram site.quote size d.src d.data
  rw [show parseRRQ d.src (d.data.take bufSize) = .error err from rejected] at answer
  refine ⟨_, Lan.Step.answered before after d ts _ _ d.src _ here size (Prod.ext rfl answer), ?_⟩
  refine ⟨⟨d.dst, d.src, mkError (err.text site.quote)⟩, by simp, here, back, ?_⟩
  exact verdict_of_opcode (quiet_mkError _).1

/-- A listener answers every ERROR packet with an ERROR packet. The listeners send finitely many
of them in every run if and only if no datagram that starts the run, with a listener as its
source and a listener as its destination, is rejected by `parseRRQ`. -/
theorem serve_answers_errors (site : Site) (ds : List Datagram) :
    (∀ buf addr data : Bytes, buf.length = bufSize → uint16 data = 5 → ∃ text,
      (serveRound site.quote buf (.datagram addr data)).2 = .writeTo addr (mkError text)) ∧
    ((∀ r : Run (Lan.Step site) ⟨ds, []⟩, {n | r.marked n = true}.Finite) ↔
      ∀ d ∈ ds, d.src ∈ site.listeners → d.dst ∈ site.listeners →
        ∃ req, verdict d = .ok req) := by
  refine ⟨?_, ?_, ?_⟩
  · intro buf addr data size opcode
    have other : uint16 (Datagram.mk addr [] data).data ≠ 1 := by
      rw [opcode]
      decide
    obtain ⟨err, rejected⟩ := verdict_of_opcode other
    have answer := serveRound_datagram site.quote size addr data
    rw [show parseRRQ addr (data.take bufSize) = .error err from rejected] at answer
    exact ⟨_, answer⟩
  · intro finite d member back here
    rcases parsed : verdict d with err | req
    · have bouncing : Bouncing site ⟨ds, []⟩ := ⟨d, member, back, here, err, parsed⟩
      obtain ⟨r, always⟩ := exists_all_marked (bouncing_again site) bouncing
      have all : {n | r.marked n = true} = Set.univ := Set.eq_univ_of_forall always
      have := finite r
      rw [all] at this
      exact absurd this Set.infinite_univ
    · exact ⟨req, rfl⟩
  · intro calm r
    exact r.finite_marked calm_step potential_step
      ⟨calm, fun _ member => absurd member List.not_mem_nil⟩

/-- Two listeners on one network. -/
def twoListeners : Site where
  listeners := [ascii "10.0.0.1:69", ascii "10.0.0.2:69"]
  handler _ := blob (ascii "abc")
  quote := ⟨id, itoa⟩

/-- An empty ERROR packet that claims to come from the other listener. -/
def spoofed : Datagram := ⟨ascii "10.0.0.2:69", ascii "10.0.0.1:69", mkError []⟩

/-- The spoofed ERROR packet is answered with an ERROR packet, and there is a run in which every
event is a listener sending another one. -/
theorem serve_answers_spoofed :
    (serveRound twoListeners.quote (List.replicate bufSize 0)
        (.datagram spoofed.src spoofed.data)).2 =
      .writeTo (ascii "10.0.0.2:69")
        (mkError (ascii "packet from 10.0.0.2:69 too small to be an RRQ")) ∧
    ∃ r : Run (Lan.Step twoListeners) ⟨[spoofed], []⟩, ∀ n, r.marked n = true := by
  refine ⟨by decide +kernel, exists_all_marked (bouncing_again twoListeners) ?_⟩
  refine ⟨spoofed, List.mem_singleton_self _, by decide, by decide, ?_⟩
  exact verdict_of_opcode (quiet_mkError _).1

end Pixiecore.Tftp
