import Mathlib.Algebra.GroupWithZero.Nat
import Mathlib.Order.Lattice.Nat
import Pixiecore.Pxe.Proofs.Reflection

/-!
# PXE replies between servers

A PXE server takes the reply of another one for a request and answers it, to where it came
from. One request with a forged source address therefore starts an exchange of replies between
two PXE servers. It ends only if one of the replies is rejected (`parsePXE_replyPXE_ne_ok_iff`);
with a boot type of at most five bytes none is. ProxyDHCP servers take no part in it.
-/

namespace Pixiecore.Pxe

open Dhcp Transition

/-! ## Exchanges that end -/

section Exchange

variable (site : Site) {d d' : Datagram}

/-- The exchange that a datagram starts comes to an end. -/
def Dies (d : Datagram) : Prop := ∃ n, site.exchange n d = none

theorem exchange_succ (n : Nat) (next : site.answer d = some d') :
    site.exchange (n + 1) d = site.exchange n d' := by
  rw [Site.exchange, next, Option.bind_some]

theorem exchange_one_of_answer (silent : site.answer d = none) : site.exchange 1 d = none := by
  rw [Site.exchange, silent, Option.bind_none]

/-- How many replies an exchange has. -/
noncomputable def lifetime (d : Datagram) : Nat := sInf {n | site.exchange (n + 1) d = none}

theorem lifetime_eq_zero (silent : site.answer d = none) : lifetime site d = 0 :=
  Nat.sInf_eq_zero.mpr (.inl (exchange_one_of_answer site silent))

theorem Dies.exchange_lifetime (dies : Dies site d) :
    site.exchange (lifetime site d + 1) d = none := by
  refine Nat.sInf_mem (s := {n | site.exchange (n + 1) d = none}) ?_
  obtain ⟨n, ended⟩ := dies
  cases n with
  | zero => cases ended
  | succ n => exact ⟨n, ended⟩

theorem Dies.next (dies : Dies site d) (next : site.answer d = some d') : Dies site d' := by
  obtain ⟨n, ended⟩ := dies
  cases n with
  | zero => cases ended
  | succ n => exact ⟨n, by rwa [exchange_succ site n next] at ended⟩

/-- The reply is one of those that were left. -/
theorem lifetime_next (dies : Dies site d) (next : site.answer d = some d') :
    lifetime site d' + 1 ≤ lifetime site d := by
  have ended := dies.exchange_lifetime
  rw [exchange_succ site _ next] at ended
  cases left : lifetime site d with
  | zero =>
    rw [left] at ended
    cases ended
  | succ n =>
    rw [left] at ended
    exact Nat.succ_le_succ (Nat.sInf_le ended)

end Exchange

/-! ## The potential of a network -/

/-- Whether a ProxyDHCP server may answer a datagram. -/
def offers (d : Datagram) : Nat :=
  match parseDHCP (d.data.take 1024) with
  | .ok _ => 1
  | .error _ => 0

theorem offers_eq_zero {d : Datagram} (rejected : ∀ q, parseDHCP (d.data.take 1024) ≠ .ok q) :
    offers d = 0 := by
  rw [offers]
  cases parsed : parseDHCP (d.data.take 1024) with
  | error e => rfl
  | ok q => exact absurd parsed (rejected q)

/-- What a datagram can still make the servers send. -/
noncomputable def weight (site : Site) (d : Datagram) : Nat := lifetime site d + offers d

noncomputable def potential (site : Site) (flight : List Datagram) : Nat :=
  (flight.map (weight site)).sum

section Step

variable {site : Site} {d : Datagram}

theorem answer_eq_none (rejected : ∀ q, parsePXE (d.data.take 1024) ≠ .ok q) :
    site.answer d = none := by
  rw [Site.answer]
  cases site.pxe d.dst with
  | none => rfl
  | some h =>
    cases parsed : parsePXE (d.data.take 1024) with
    | error e => rfl
    | ok q => exact absurd parsed (rejected q)

theorem answer_of_accepted {h : Host} {req : PXEPacket} (here : site.pxe d.dst = some h)
    (accepted : parsePXE (d.data.take 1024) = .ok req) :
    site.answer d = some ⟨d.dst, d.src, replyPXE (req.answeredBy d.dst.ip h.httpPort)⟩ := by
  simp only [Site.answer, here, accepted]

/-- Nobody answers a copy of an offer. -/
theorem weight_offer {w : World} {buf buf' : Bytes} {ifIndex : Int} {reply : Reply}
    (size : buf.length = 1024)
    (round : serveProxyDHCPRound w buf (.datagram d.data ifIndex d.src.ip d.src.port) =
      (buf', some reply)) :
    offers d = 1 ∧ ∀ c, c.data = reply.data → site.answer c = none ∧ weight site c = 0 := by
  obtain ⟨req, ip, parsed, _, _, rfl⟩ := serveProxyDHCPRound_reply (congrArg Prod.snd round)
  have sized := sized_of_parseDHCP parsed ip
  constructor
  · rw [size] at parsed
    rw [offers, parsed]
  · intro c same
    have whole : c.data.take 1024 = offerDHCP { req with serverIP := some ip } := by
      rw [same]
      refine List.take_of_length_le ?_
      rw [length_offerDHCP sized]
      omega
    have silent : site.answer c = none := by
      refine answer_eq_none fun q => ?_
      rw [whole]
      exact parsePXE_offerDHCP sized q
    refine ⟨silent, ?_⟩
    rw [weight, lifetime_eq_zero site silent, offers_eq_zero fun q => ?_]
    rw [whole]
    exact parseDHCP_offerDHCP sized q

/-- What a PXE server sends is the next datagram of the exchange, and no offer will follow it. -/
theorem answer_replied {h : Host} {shouldBoot : Bytes → Except Bytes Unit} {buf buf' : Bytes}
    {reply : Reply} (here : site.pxe d.dst = some h) (size : buf.length = 1024)
    (round : servePXERound h.httpPort ⟨shouldBoot, h.interfaceByIndex⟩ buf
      (.datagram d.data h.ifIndex d.src.ip d.src.port) = (buf', some reply)) :
    site.answer d = some ⟨d.dst, ⟨reply.dstIP, reply.dstPort⟩, reply.data⟩ ∧
      offers ⟨d.dst, ⟨reply.dstIP, reply.dstPort⟩, reply.data⟩ = 0 := by
  have next := servePXERound_eq_answer here shouldBoot size
  rw [round] at next
  refine ⟨next.symm, offers_eq_zero fun q => ?_⟩
  obtain ⟨req, ip, parsed, _, rfl⟩ := servePXERound_reply (congrArg Prod.snd round)
  exact parseDHCP_take_replyPXE (sized_of_parsePXE parsed ip h.httpPort) _ q

/-- What is on its way after one datagram has been replaced by others. -/
theorem forall_replace {P : Datagram → Prop} {before after new : List Datagram}
    (old : ∀ x ∈ before ++ d :: after, P x) (fresh : ∀ x ∈ new, P x) :
    ∀ x ∈ before ++ after ++ new, P x := by
  intro x member
  rcases List.mem_append.mp member with kept | added
  · refine old x ?_
    rcases List.mem_append.mp kept with front | back
    · exact List.mem_append_left _ front
    · exact List.mem_append_right _ (List.mem_cons_of_mem d back)
  · exact fresh x added

theorem dies_step (flight : List Datagram) (marked : Bool) (flight' : List Datagram)
    (dies : ∀ x ∈ flight, Dies site x) (step : Lan.Step site flight marked flight') :
    ∀ x ∈ flight', Dies site x := by
  cases step with
  | idle => exact dies
  | lost before after d =>
    have fewer : ∀ x ∈ before ++ after ++ [], Dies site x :=
      forall_replace dies (fun _ none => absurd none List.not_mem_nil)
    rwa [List.append_nil] at fewer
  | offered before after copies d w buf buf' ifIndex reply here size round broadcast =>
    refine forall_replace dies fun c member => ⟨1, exchange_one_of_answer site ?_⟩
    exact ((weight_offer size round).2 c (broadcast c member).2.2).1
  | replied before after d h shouldBoot buf buf' reply here size round =>
    refine forall_replace dies fun x member => ?_
    rw [List.mem_singleton.mp member]
    exact (dies d (List.mem_append_right _ List.mem_cons_self)).next site
      (answer_replied here size round).1

/-- What the potential gains and loses when a datagram is replaced by others. -/
theorem potential_replaced (site : Site) (before after new : List Datagram) (d : Datagram) :
    potential site (before ++ after ++ new) + weight site d =
      potential site (before ++ d :: after) + (new.map (weight site)).sum := by
  simp only [potential, List.map_append, List.sum_append, List.map_cons, List.sum_cons]
  omega

/-- Every reply is paid for. -/
theorem potential_pays (flight : List Datagram) (marked : Bool) (flight' : List Datagram)
    (dies : ∀ x ∈ flight, Dies site x) (step : Lan.Step site flight marked flight') :
    potential site flight' + marked.toNat ≤ potential site flight := by
  cases step with
  | idle => exact Nat.le_refl _
  | lost before after d =>
    have gone := potential_replaced site before after [] d
    rw [List.append_nil, List.map_nil, List.sum_nil] at gone
    rw [Bool.toNat_false]
    omega
  | offered before after copies d w buf buf' ifIndex reply here size round broadcast =>
    obtain ⟨offer, free⟩ := weight_offer size round
    have nothing : (copies.map (weight site)).sum = 0 := by
      refine List.sum_eq_zero fun x member => ?_
      obtain ⟨c, among, rfl⟩ := List.mem_map.mp member
      exact (free c (broadcast c among).2.2).2
    have cost : weight site d = lifetime site d + 1 := by rw [weight, offer]
    have replaced := potential_replaced site before after copies d
    rw [Bool.toNat_true]
    omega
  | replied before after d h shouldBoot buf buf' reply here size round =>
    obtain ⟨next, noOffer⟩ := answer_replied here size round
    have left := lifetime_next site (dies d (List.mem_append_right _ List.mem_cons_self)) next
    have replaced := potential_replaced site before after
      [⟨d.dst, ⟨reply.dstIP, reply.dstPort⟩, reply.data⟩] d
    rw [List.map_singleton, List.sum_singleton] at replaced
    simp only [weight, noOffer] at replaced
    rw [Bool.toNat_true]
    omega

/-! ## The loop -/

/-- An exchange that does not end goes on. -/
theorem endless_again (site : Site) (flight : List Datagram)
    (endless : ∃ d ∈ flight, ¬ Dies site d) :
    ∃ flight', Lan.Step site flight true flight' ∧ ∃ d ∈ flight', ¬ Dies site d := by
  obtain ⟨d, member, alive⟩ := endless
  obtain ⟨before, after, rfl⟩ := List.append_of_mem member
  obtain ⟨d', next⟩ : ∃ d', site.answer d = some d' := by
    refine Option.ne_none_iff_exists'.mp fun silent => alive ⟨1, ?_⟩
    exact exchange_one_of_answer site silent
  obtain ⟨h, here⟩ : ∃ h, site.pxe d.dst = some h := by
    refine Option.ne_none_iff_exists'.mp fun nobody => ?_
    rw [Site.answer, nobody] at next
    cases next
  have size : (List.replicate 1024 (0 : UInt8)).length = 1024 := List.length_replicate
  have answered := servePXERound_eq_answer here (fun _ => .ok ()) size
  rw [next] at answered
  obtain ⟨reply, sent, rfl⟩ := Option.map_eq_some_iff.mp answered
  refine ⟨_, Lan.Step.replied before after d h _ _ _ reply here size (Prod.ext rfl sent), _,
    List.mem_append_right _ (List.mem_singleton_self _), ?_⟩
  rintro ⟨n, ended⟩
  exact alive ⟨n + 1, by rwa [exchange_succ site n next]⟩

end Step

/-- A datagram for a PXE server that says it comes from a PXE server, and that is accepted. -/
structure Forged (site : Site) (d : Datagram) (h : Host) (p : PXEPacket) : Prop where
  here : site.pxe d.dst = some h
  back : site.pxe d.src ≠ none
  accepted : parsePXE (d.data.take 1024) = .ok p

section Forged

variable {site : Site} {d : Datagram} {h : Host} {p : PXEPacket}

theorem Forged.answer (forged : Forged site d h p) :
    site.answer d = some ⟨d.dst, d.src, replyPXE (p.answeredBy d.dst.ip h.httpPort)⟩ :=
  answer_of_accepted forged.here forged.accepted

/-- What the second server makes of the reply of the first. -/
theorem Forged.reply_accepted (forged : Forged site d h p) {q : PXEPacket}
    (taken : parsePXE (replyPXE (p.answeredBy d.dst.ip h.httpPort)) = .ok q) :
    ∃ h', Forged site ⟨d.dst, d.src, replyPXE (p.answeredBy d.dst.ip h.httpPort)⟩ h' q := by
  obtain ⟨h', there⟩ := Option.ne_none_iff_exists'.mp forged.back
  refine ⟨h', there, ?_, ?_⟩
  · rw [forged.here]
    exact Option.some_ne_none h
  · rw [take_replyPXE forged.accepted]
    exact taken

/-- The reply is answered unless an option behind its option 43 is malformed. -/
theorem Forged.exchange_two_iff (forged : Forged site d h p) :
    site.exchange 2 d = none ↔
      MalformedBehindMenu (d.data.take 1024) (httpServerURL d.dst.ip h.httpPort) := by
  rw [exchange_succ site 1 forged.answer, ← parsePXE_replyPXE_ne_ok_iff forged.accepted]
  constructor
  · intro silent q taken
    obtain ⟨h', again⟩ := forged.reply_accepted taken
    rw [exchange_succ site 0 again.answer] at silent
    cases silent
  · intro rejected
    refine exchange_one_of_answer site (answer_eq_none fun q => ?_)
    rw [take_replyPXE forged.accepted]
    exact rejected q

/-- A short boot type is answered with one of four bytes, and so on for ever. -/
theorem Forged.endless (forged : Forged site d h p) (short : p.bootTypeBytes.length ≤ 5)
    (n : Nat) : site.exchange n d ≠ none := by
  induction n generalizing d h p with
  | zero => exact Option.some_ne_none d
  | succ n ih =>
    have sized := sized_of_parsePXE forged.accepted d.dst.ip h.httpPort
    obtain ⟨q, taken, four⟩ := parsePXE_replyPXE_short d.dst.ip h.httpPort sized short rfl
    obtain ⟨h', again⟩ := forged.reply_accepted taken
    rw [exchange_succ site n forged.answer]
    exact ih again (by omega)

end Forged

/-- Offers are taken for requests by neither parser and PXE replies not by `ParseDHCP`, so that no
ProxyDHCP server takes part in an exchange of replies. `ParsePXE` takes a PXE reply for a request,
unless an option 97 that it reads from the sixth byte of the boot type on is malformed. The servers
send finitely many datagrams in every run if and only if each datagram that starts the run begins
an exchange between PXE servers that dies; one that is forged to come from a PXE server and has a
boot type of at most five bytes does not. -/
theorem reflected_replies (site : Site) (ds : List Datagram) :
    (∀ (b : Bytes) (p : DHCPPacket) (ip : IPv4), parseDHCP b = .ok p →
      (∀ q, parseDHCP (offerDHCP { p with serverIP := some ip }) ≠ .ok q) ∧
      ∀ q, parsePXE (offerDHCP { p with serverIP := some ip }) ≠ .ok q) ∧
    (∀ (b : Bytes) (p : PXEPacket) (ip : IPv4) (httpPort : Int64), parsePXE b = .ok p →
      (∀ q, parseDHCP (replyPXE (p.answeredBy ip httpPort)) ≠ .ok q) ∧
      ((∀ q, parsePXE (replyPXE (p.answeredBy ip httpPort)) ≠ .ok q) ↔
        MalformedBehindMenu b (httpServerURL ip httpPort))) ∧
    (∀ (ss : List Server) (r : Bytes), ReplyChain ss r → 2 ≤ ss.length →
      ∀ s ∈ ss, s ≠ .proxyDHCP) ∧
    ((∀ r : Run (Lan.Step site) ds, {n | r.marked n = true}.Finite) ↔
      ∀ d ∈ ds, ∃ n, site.exchange n d = none) ∧
    ∀ (d : Datagram) (h : Host) (p : PXEPacket), Forged site d h p →
      (site.exchange 2 d = none ↔
        MalformedBehindMenu (d.data.take 1024) (httpServerURL d.dst.ip h.httpPort)) ∧
      (p.bootTypeBytes.length ≤ 5 → ∀ n, site.exchange n d ≠ none) := by
  refine ⟨?_, ?_, fun ss r chain => (replyChain_inv chain).2, ⟨?_, ?_⟩, ?_⟩
  · intro b p ip accepted
    have sized := sized_of_parseDHCP accepted ip
    exact ⟨parseDHCP_offerDHCP sized, parsePXE_offerDHCP sized⟩
  · intro b p ip httpPort accepted
    have sized := sized_of_parsePXE accepted ip httpPort
    refine ⟨fun q parsed => ?_, parsePXE_replyPXE_ne_ok_iff accepted ip httpPort⟩
    refine parseDHCP_take_replyPXE sized (replyPXE (p.answeredBy ip httpPort)).length q ?_
    rw [List.take_length]
    exact parsed
  · intro finite d member
    by_contra alive
    obtain ⟨r, always⟩ := exists_all_marked (endless_again site) ⟨d, member, alive⟩
    have all : {n | r.marked n = true} = Set.univ := Set.eq_univ_of_forall always
    have := finite r
    rw [all] at this
    exact absurd this Set.infinite_univ
  · intro dies r
    exact r.finite_marked dies_step potential_pays dies
  · intro d h p forged
    exact ⟨forged.exchange_two_iff, forged.endless⟩

/-! ## Two servers -/

/-- A PXE server whose only interface has the given address. -/
def hostAt (ip : IPv4) : Host where
  httpPort := 70
  interfaceByIndex _ := .ok ⟨ascii "eth0", .ok [.ipNet ip.bytes]⟩
  ifIndex := 2

/-- Two PXE servers, and a ProxyDHCP server beside each of them. -/
def twoServers : Site where
  proxyDHCP := [⟨⟨10, 0, 0, 1⟩, 67⟩, ⟨⟨10, 0, 0, 2⟩, 67⟩]
  pxe e :=
    if e = ⟨⟨10, 0, 0, 1⟩, 4011⟩ then some (hostAt ⟨10, 0, 0, 1⟩)
    else if e = ⟨⟨10, 0, 0, 2⟩, 4011⟩ then some (hostAt ⟨10, 0, 0, 2⟩)
    else none
  found := by
    intro e h here
    split at here
    · cases here
      subst e
      decide
    · split at here
      · cases here
        subst e
        decide
      · cases here

/-- A request for a boot type of four bytes, sent to one server as if by the other. -/
def forgedRequest : Datagram :=
  ⟨⟨⟨10, 0, 0, 2⟩, 4011⟩, ⟨⟨10, 0, 0, 1⟩, 4011⟩, menuRequest [0x80, 0, 0, 0]⟩

theorem forged_forgedRequest :
    Forged twoServers forgedRequest (hostAt ⟨10, 0, 0, 1⟩) (menuRequested [0x80, 0, 0, 0]) :=
  ⟨rfl, by decide, by decide +kernel⟩

/-- A boot type whose sixth byte begins an option 97 of one byte. -/
def longBootType : Bytes := [0x80, 0, 0, 0, 0, 97, 1, 0]

/-- The same with this boot type. -/
def longRequest : Datagram :=
  ⟨⟨⟨10, 0, 0, 2⟩, 4011⟩, ⟨⟨10, 0, 0, 1⟩, 4011⟩, menuRequest longBootType⟩

theorem forged_longRequest :
    Forged twoServers longRequest (hostAt ⟨10, 0, 0, 1⟩) (menuRequested longBootType) :=
  ⟨rfl, by decide, by decide +kernel⟩

/-- An offer, the reply to the long request, and the runs that each of the two requests starts. -/
theorem reflected_replies_sample :
    parseDHCP (discover 1 6) = .ok discovered ∧
      (∀ q, parsePXE (offerDHCP { discovered with serverIP := some ⟨10, 0, 0, 1⟩ }) ≠ .ok q) ∧
      parsePXE (menuRequest longBootType) = .ok (menuRequested longBootType) ∧
      (∀ q, parsePXE (replyPXE ((menuRequested longBootType).answeredBy ⟨10, 0, 0, 1⟩ 70)) ≠
        .ok q) ∧
      (∀ r : Run (Lan.Step twoServers) [longRequest], {n | r.marked n = true}.Finite) ∧
      ∀ n, twoServers.exchange n forgedRequest ≠ none := by
  have accepted : parsePXE (menuRequest longBootType) = .ok (menuRequested longBootType) := by
    decide +kernel
  obtain ⟨offer, reply, _, runs, forged⟩ := reflected_replies twoServers [longRequest]
  have malformed : ∀ url, MalformedBehindMenu (menuRequest longBootType) url := by
    intro url
    refine ⟨longBootType, by decide +kernel, by decide, (97, [0]), ?_, ?_⟩
    · have front : longBootType.drop 5 ++ replyEnd url = 97 :: 1 :: ([0] ++ replyEnd url) := rfl
      rw [front, options_cons _ _ _ _ (by decide) rfl]
      exact List.mem_cons_self
    · intro formed
      exact absurd (formed rfl).1 (by decide)
  have whole : longRequest.data.take 1024 = menuRequest longBootType := by decide +kernel
  refine ⟨parseDHCP_discover, (offer _ _ ⟨10, 0, 0, 1⟩ parseDHCP_discover).2, accepted,
    (reply _ _ ⟨10, 0, 0, 1⟩ 70 accepted).2.mpr (malformed _), runs.mpr ?_,
    (forged _ _ _ forged_forgedRequest).2 (by decide)⟩
  intro d member
  rw [List.mem_singleton.mp member]
  refine ⟨2, (forged _ _ _ forged_longRequest).1.mpr ?_⟩
  rw [whole]
  exact malformed _

/-- The reply to the forged request is taken for a request, and there is a run in which every event
is a server sending another reply. -/
theorem replyPXE_taken_for_request :
    parsePXE (menuRequest [0x80, 0, 0, 0]) = .ok (menuRequested [0x80, 0, 0, 0]) ∧
      parsePXE (replyPXE ((menuRequested [0x80, 0, 0, 0]).answeredBy ⟨10, 0, 0, 1⟩ 70)) =
        .ok { menuRequested [0x80, 0, 0, 0] with clientIP := [0, 0, 0, 0] } ∧
      ∃ r : Run (Lan.Step twoServers) [forgedRequest], ∀ n, r.marked n = true := by
  refine ⟨parsePXE_menuRequest, by decide +kernel, exists_all_marked (endless_again twoServers)
    ⟨forgedRequest, List.mem_singleton_self _, ?_⟩⟩
  rintro ⟨n, ended⟩
  exact forged_forgedRequest.endless (by decide) n ended

end Pixiecore.Pxe
