import Pixiecore.Dhcp.Proofs.Offer
import Pixiecore.Dhcp.Serve

/-!
# The outcome of `ParseDHCP`

For an Ethernet request the header and the list of options decide whether it is accepted. The
order of the options plays no part in it, nor does anything after the END option. What is not
checked is that there is a message type at all.
-/

namespace Pixiecore.Dhcp

/-- The options that iterating `DhcpOption` over a packet visits. -/
def packetOptions (b : Bytes) : List (UInt8 × Bytes) := (options (b.drop 240)).1

/-- Every option that `ParseDHCP` checks is as it should be, and there is a GUID. -/
structure ClientOptions (opts : List (UInt8 × Bytes)) : Prop where
  messageType : ∀ val, (53, val) ∈ opts → val = [1]
  architecture : ∀ val, (93, val) ∈ opts → val = [0, 0]
  guid : ∀ val, (97, val) ∈ opts → val.length = 17 ∧ byteAt val 0 = 0
  present : ∃ val, (97, val) ∈ opts

theorem requestGUID_ne_none_iff {opts : List (UInt8 × Bytes)} :
    requestGUID opts ≠ none ↔ ∃ val, (97, val) ∈ opts := by
  rw [← lastOption_ne_none_iff, requestGUID, Ne, Option.map_eq_none_iff]

/-- Of well-formed GUIDs the last one is taken, without its type byte. -/
theorem requestGUID_of_last {opts : List (UInt8 × Bytes)}
    (wellFormed : ∀ val, (97, val) ∈ opts → val.length = 17) (present : requestGUID opts ≠ none) :
    ∃ val, IsLast 97 opts val ∧ requestGUID opts = some (slice val 1 17) := by
  obtain ⟨guid, found⟩ := Option.ne_none_iff_exists'.mp present
  obtain ⟨val, last, rfl⟩ := Option.map_eq_some_iff.mp found
  have size := wellFormed val (lastOption_mem last)
  have whole : slice val 1 17 = val.drop 1 :=
    List.take_of_length_le (by rw [List.length_drop]; omega)
  exact ⟨val, lastOption_eq_some_iff.mp last, found.trans (congrArg some whole.symm)⟩

theorem clientOptions_iff (opts : List (UInt8 × Bytes)) :
    ClientOptions opts ↔ (∀ o ∈ opts, Acceptable o) ∧ requestGUID opts ≠ none := by
  rw [requestGUID_ne_none_iff]
  constructor
  · intro good
    refine ⟨?_, good.present⟩
    intro o member
    refine ⟨?_, ?_, ?_⟩
    · intro is
      exact good.messageType o.2 (by rwa [← is])
    · intro is
      exact good.architecture o.2 (by rwa [← is])
    · intro is
      exact good.guid o.2 (by rwa [← is])
  · intro ⟨all, present⟩
    refine ⟨?_, ?_, ?_, present⟩
    · intro val member
      exact (all _ member).messageType rfl
    · intro val member
      exact (all _ member).architecture rfl
    · intro val member
      exact (all _ member).guid rfl

/-- The order of the options plays no part. -/
theorem ClientOptions.perm {opts opts' : List (UInt8 × Bytes)} (same : opts.Perm opts')
    (good : ClientOptions opts) : ClientOptions opts' := by
  have back : ∀ o, o ∈ opts' → o ∈ opts := fun o member => same.mem_iff.mpr member
  obtain ⟨val, member⟩ := good.present
  exact ⟨fun v m => good.messageType v (back _ m), fun v m => good.architecture v (back _ m),
    fun v m => good.guid v (back _ m), val, same.mem_iff.mp member⟩

theorem accepted_iff {b : Bytes} (long : 240 ≤ b.length)
    (ethernet : byteAt b 1 = 1 ∨ byteAt b 2 = 6) :
    (∃ p, parseDHCP b = .ok p) ↔
      byteAt b 0 = 1 ∧ slice b 236 240 = dhcpMagic ∧ ClientOptions (packetOptions b) := by
  rw [clientOptions_iff]
  constructor
  · intro ⟨p, accepted⟩
    obtain ⟨-, op, -, magic, all, present, -⟩ := (parseDHCP_ok_iff b p).mp accepted
    exact ⟨op, magic, all, present⟩
  · intro ⟨op, magic, all, present⟩
    exact ⟨_, (parseDHCP_ok_iff b _).mpr ⟨long, op, ethernet, magic, all, present, rfl⟩⟩

/-- Nothing after the END option plays a part. -/
theorem parseDHCP_after_end {front rest : Bytes} (long : 240 ≤ (front ++ 255 :: rest).length)
    (ends : (options ((front ++ 255 :: rest).drop 240)).2 = 255 :: rest) (rest' : Bytes) :
    parseDHCP (front ++ 255 :: rest') = parseDHCP (front ++ 255 :: rest) := by
  have header : 240 ≤ front.length := by
    have most := length_options_snd_le ((front ++ 255 :: rest).drop 240)
    rw [ends, List.length_drop, List.length_append, List.length_cons] at most
    rw [List.length_append, List.length_cons] at long
    omega
  have drops : ∀ tail : Bytes, (front ++ tail).drop 240 = front.drop 240 ++ tail :=
    fun tail => List.drop_append_of_le_length header
  have takes : ∀ tail : Bytes, (front ++ tail).take 240 = front.take 240 :=
    fun tail => List.take_append_of_le_length header
  refine parseDHCP_congr (by rw [List.length_append]; omega) long (by rw [takes, takes]) ?_
  intro ret
  rw [drops] at ends
  apply forOptions_congr
  rw [drops, drops]
  exact options_after_end ends rest'

/-- What `ParseDHCP` makes of a packet for an Ethernet hardware address. -/
theorem parseDHCP_outcome (b : Bytes) (long : 240 ≤ b.length)
    (ethernet : byteAt b 1 = 1 ∧ byteAt b 2 = 6) :
    ((∃ p, parseDHCP b = .ok p) ↔
      byteAt b 0 = 1 ∧ slice b 236 240 = dhcpMagic ∧ ClientOptions (packetOptions b)) ∧
    (∀ p, parseDHCP b = .ok p → p.tid = slice b 4 8 ∧ p.mac = slice b 28 34 ∧
      ∃ val, IsLast 97 (packetOptions b) val ∧ p.guid = some (slice val 1 17)) ∧
    (∀ b', 240 ≤ b'.length → b'.take 240 = b.take 240 →
      (packetOptions b').Perm (packetOptions b) →
      ((∃ p, parseDHCP b' = .ok p) ↔ ∃ p, parseDHCP b = .ok p)) ∧
    (∀ front rest rest', b = front ++ 255 :: rest → (options (b.drop 240)).2 = 255 :: rest →
      parseDHCP (front ++ 255 :: rest') = parseDHCP b) := by
  refine ⟨accepted_iff long (.inl ethernet.1), ?_, ?_, ?_⟩
  · intro p accepted
    obtain ⟨-, -, -, -, all, present, rfl⟩ := (parseDHCP_ok_iff b p).mp accepted
    exact ⟨rfl, rfl, requestGUID_of_last (fun _ member => ((all _ member).guid rfl).1) present⟩
  · intro b' long' header perm
    have bytes : ∀ i < 240, byteAt b' i = byteAt b i := by
      intro i below
      rw [← byteAt_take b' below, header, byteAt_take b below]
    have magic : slice b' 236 240 = slice b 236 240 := by
      rw [← slice_take b' 236 240 240 (Nat.le_refl _), header, slice_take b _ _ _ (Nat.le_refl _)]
    rw [accepted_iff long' (.inl ((bytes 1 (by omega)).trans ethernet.1)),
      accepted_iff long (.inl ethernet.1),
      bytes 0 (by omega), magic]
    have both : ClientOptions (packetOptions b') ↔ ClientOptions (packetOptions b) :=
      ⟨ClientOptions.perm perm, ClientOptions.perm perm.symm⟩
    rw [both]
  · intro front rest rest' same ends
    subst same
    exact parseDHCP_after_end long ends rest'

theorem packetOptions_discover :
    packetOptions (discover 1 6) = [(53, [1]), (97, 0 :: List.replicate 16 7)] := by
  decide +kernel

/-- An ordinary DHCPDISCOVER, which is accepted with its options the other way round as well. -/
theorem parseDHCP_outcome_discover :
    ∃ p, parseDHCP ((discover 1 6).take 240 ++ [97, 17, 0] ++ List.replicate 16 7 ++
      [53, 1, 1, 255]) = .ok p := by
  have outcome := parseDHCP_outcome (discover 1 6) (by decide +kernel) (by decide +kernel)
  refine (outcome.2.2.1 _ (by decide +kernel) (by decide +kernel) ?_).mpr
    ⟨discovered, parseDHCP_discover⟩
  have swapped : packetOptions ((discover 1 6).take 240 ++ [97, 17, 0] ++ List.replicate 16 7 ++
      [53, 1, 1, 255]) = [(97, 0 :: List.replicate 16 7), (53, [1])] := by decide +kernel
  rw [swapped, packetOptions_discover]
  exact List.Perm.swap _ _ _

/-! ## The message type -/

/-- There is a message type, and it is always DHCPDISCOVER. -/
structure OnlyDiscover (opts : List (UInt8 × Bytes)) : Prop where
  present : ∃ val, (53, val) ∈ opts
  discover : ∀ val, (53, val) ∈ opts → val = [1]

theorem onlyDiscover_iff_of_accepted {b : Bytes} {p : DHCPPacket}
    (accepted : parseDHCP b = .ok p) :
    OnlyDiscover (packetOptions b) ↔ ∃ val, (53, val) ∈ packetOptions b := by
  constructor
  · intro only
    exact only.present
  · intro present
    obtain ⟨-, -, -, -, all, -, -⟩ := (parseDHCP_ok_iff b p).mp accepted
    refine ⟨present, ?_⟩
    intro val member
    exact (all _ member).messageType rfl

/-- An accepted packet, and so a datagram that is answered with an offer, is a DHCPDISCOVER just
when it has a message type at all. -/
theorem offers_only_to_discover_iff (b : Bytes) :
    (∀ p, parseDHCP b = .ok p →
      (OnlyDiscover (packetOptions b) ↔ ∃ val, (53, val) ∈ packetOptions b)) ∧
    ∀ w buf data ifIndex srcIP srcPort reply, data.take buf.length = b →
      (serveProxyDHCPRound w buf (.datagram data ifIndex srcIP srcPort)).2 = some reply →
      (OnlyDiscover (packetOptions b) ↔ ∃ val, (53, val) ∈ packetOptions b) := by
  constructor
  · intro p accepted
    exact onlyDiscover_iff_of_accepted accepted
  · intro w buf data ifIndex srcIP srcPort reply received answered
    obtain ⟨req, ip, accepted, -⟩ := serveProxyDHCPRound_reply answered
    rw [received] at accepted
    exact onlyDiscover_iff_of_accepted accepted

/-- A booter that boots everyone, on an interface with an address. -/
def bootAll : World where
  shouldBoot _ := .ok ()
  interfaceByIndex _ := .ok ⟨ascii "eth0", .ok [.ipNet [192, 168, 0, 1]]⟩

theorem offers_only_to_discover_sample :
    parseDHCP (discover 1 6) = .ok discovered ∧ OnlyDiscover (packetOptions (discover 1 6)) := by
  have only := (offers_only_to_discover_iff _).1 _ parseDHCP_discover
  refine ⟨parseDHCP_discover, only.mpr ⟨[1], ?_⟩⟩
  rw [packetOptions_discover]
  exact List.mem_cons_self

/-- A packet without a message type. -/
def noMessageType : Bytes :=
  (discover 1 6).take 240 ++ [97, 17, 0] ++ List.replicate 16 7 ++ [255]

/-- It is accepted, and gets an offer. -/
theorem offer_to_noMessageType :
    parseDHCP noMessageType = .ok discovered ∧
      (serveProxyDHCPRound bootAll (List.replicate 1024 0)
        (.datagram noMessageType 2 ⟨0, 0, 0, 0⟩ 68)).2.isSome = true ∧
      ¬ OnlyDiscover (packetOptions noMessageType) := by
  refine ⟨by decide +kernel, by decide +kernel, ?_⟩
  intro only
  obtain ⟨val, member⟩ := only.present
  have plain : packetOptions noMessageType = [(97, 0 :: List.replicate 16 7)] := by decide +kernel
  rw [plain, List.mem_singleton] at member
  cases member

end Pixiecore.Dhcp
