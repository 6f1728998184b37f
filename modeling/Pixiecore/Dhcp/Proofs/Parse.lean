import Pixiecore.Dhcp.Packet

/-!
# What `ParseDHCP` accepts

`parseDHCP_ok_iff` says once and for all when `ParseDHCP` succeeds and with what,
in terms of the header bytes and the list of options it visits. Everything later
about accepted requests starts from it.
-/

namespace Pixiecore.Dhcp

/-- The `switch` of `ParseDHCP` lets this option pass. -/
structure Acceptable (o : UInt8 × Bytes) : Prop where
  messageType : o.1 = 53 → o.2 = [1]
  architecture : o.1 = 93 → o.2 = [0, 0]
  guid : o.1 = 97 → o.2.length = 17 ∧ byteAt o.2 0 = 0

/-- The GUID of a request: what follows the type byte in its last option 97. -/
def requestGUID (opts : List (UInt8 × Bytes)) : Option Bytes :=
  (lastOption 97 opts).map (List.drop 1)

private theorem singleton_of_byteAt {val : Bytes} {x : UInt8} :
    val.length = 1 ∧ byteAt val 0 = x ↔ val = [x] := by
  rcases val with _ | ⟨v, _ | ⟨w, rest⟩⟩ <;> simp [byteAt]

private theorem zeros_of_uint16 {val : Bytes} :
    val.length = 2 ∧ uint16 val = 0 ↔ val = [0, 0] := by
  constructor
  · rintro ⟨len, zero⟩
    obtain ⟨hi, lo, rfl⟩ := List.length_eq_two.mp len
    have hhi := hi.toNat_lt
    have hlo := lo.toNat_lt
    have value := congrArg UInt16.toNat zero
    simp only [uint16, UInt16.toNat_ofNat', UInt16.toNat_zero] at value
    have hi0 : hi = 0 := UInt8.toNat_inj.mp (by simp only [UInt8.toNat_zero]; omega)
    have lo0 : lo = 0 := UInt8.toNat_inj.mp (by simp only [UInt8.toNat_zero]; omega)
    rw [hi0, lo0]
  · rintro rfl
    exact ⟨rfl, rfl⟩

theorem parseDHCPOption_ok_iff (ret : DHCPPacket) (o : UInt8 × Bytes) (ret' : DHCPPacket) :
    parseDHCPOption ret o.1 o.2 = .ok ret' ↔
      Acceptable o ∧
        ret' = { ret with guid := ((valueOf 97 o).map (List.drop 1)).or ret.guid } := by
  obtain ⟨typ, val⟩ := o
  unfold parseDHCPOption
  by_cases h53 : typ = 53
  · subst h53
    have acc : Acceptable (53, val) ↔ val.length = 1 ∧ byteAt val 0 = 1 := by
      rw [singleton_of_byteAt]
      exact ⟨fun a => a.messageType rfl, fun v => ⟨fun _ => v, by simp, by simp⟩⟩
    rw [if_pos rfl, acc]
    by_cases len : val.length = 1
    · by_cases byte : byteAt val 0 = 1
      · simp only [valueOf, len, byte, ne_eq, not_true_eq_false, if_false, and_self, true_and,
          Except.ok.injEq]
        exact eq_comm
      · simp [len, byte]
    · simp [len]
  by_cases h93 : typ = 93
  · subst h93
    have acc : Acceptable (93, val) ↔ val.length = 2 ∧ uint16 val = 0 := by
      rw [zeros_of_uint16]
      exact ⟨fun a => a.architecture rfl, fun v => ⟨by simp, fun _ => v, by simp⟩⟩
    rw [if_neg h53, if_pos rfl, acc]
    by_cases len : val.length = 2
    · by_cases word : uint16 val = 0
      · simp only [valueOf, len, word, ne_eq, not_true_eq_false, if_false, and_self, true_and,
          Except.ok.injEq]
        exact eq_comm
      · simp [len, word]
    · simp [len]
  by_cases h97 : typ = 97
  · subst h97
    have acc : Acceptable (97, val) ↔ val.length = 17 ∧ byteAt val 0 = 0 :=
      ⟨fun a => a.guid rfl, fun v => ⟨by simp, by simp, fun _ => v⟩⟩
    rw [if_neg h53, if_neg h93, if_pos rfl, acc]
    by_cases shape : val.length = 17 ∧ byteAt val 0 = 0
    · simp [valueOf, shape, eq_comm]
    · have malformed : val.length ≠ 17 ∨ byteAt val 0 ≠ 0 := not_and_or.mp shape
      simp [malformed, shape]
  · have acc : Acceptable (typ, val) :=
      ⟨fun h => absurd h h53, fun h => absurd h h93, fun h => absurd h h97⟩
    simp only [h53, h93, h97, acc, valueOf, if_false, true_and, Except.ok.injEq]
    exact eq_comm

/-- The option loop only ever changes the GUID, and keeps the last one. -/
theorem foldl_guid (opts : List (UInt8 × Bytes)) (ret : DHCPPacket) :
    opts.foldl (fun ret o =>
      { ret with guid := ((valueOf 97 o).map (List.drop 1)).or ret.guid }) ret =
    { ret with guid := (requestGUID opts).or ret.guid } := by
  induction opts generalizing ret with
  | nil => rfl
  | cons o opts ih =>
    rw [List.foldl_cons, ih]
    simp only [requestGUID, lastOption, lastSome_cons, DHCPPacket.mk.injEq, true_and, and_true]
    cases lastSome (valueOf 97) opts <;> simp

/-- When `ParseDHCP` succeeds, and with what. -/
theorem parseDHCP_ok_iff (b : Bytes) (p : DHCPPacket) :
    parseDHCP b = .ok p ↔
      240 ≤ b.length ∧ byteAt b 0 = 1 ∧ (byteAt b 1 = 1 ∨ byteAt b 2 = 6) ∧
      slice b 236 240 = dhcpMagic ∧ (∀ o ∈ (options (b.drop 240)).1, Acceptable o) ∧
      requestGUID (options (b.drop 240)).1 ≠ none ∧
      p = { tid := slice b 4 8, mac := slice b 28 34,
            guid := requestGUID (options (b.drop 240)).1 } := by
  unfold parseDHCP
  by_cases short : b.length < 240
  · have : ¬ 240 ≤ b.length := by omega
    simp [short, this]
  by_cases op : byteAt b 0 = 1
  swap
  · simp [short, op]
  by_cases phy : byteAt b 1 ≠ 1 ∧ byteAt b 2 ≠ 6
  · simp [short, op, phy]
  have either : byteAt b 1 = 1 ∨ byteAt b 2 = 6 := by
    by_contra neither
    exact phy (not_or.mp neither)
  by_cases magic : slice b 236 240 = dhcpMagic
  swap
  · simp [short, op, phy, magic]
  have long : 240 ≤ b.length := by omega
  have loop := forOptions_ok_iff parseDHCPOption_ok_iff
    { tid := slice b 4 8, mac := slice b 28 34 }
  simp only [foldl_guid, Option.or_none] at loop
  simp only [short, if_false, op, ne_eq, not_true_eq_false, phy, magic, long, either, true_and]
  cases ran : forOptions parseDHCPOption { tid := slice b 4 8, mac := slice b 28 34 }
      (b.drop 240) with
  | error e =>
    have rejected := not_all_of_forOptions_error parseDHCPOption_ok_iff ran
    simp only [reduceCtorEq, false_iff]
    exact fun h => rejected h.1
  | ok ret =>
    obtain ⟨all, rfl⟩ := (loop ret (b.drop 240)).mp ran
    by_cases missing : requestGUID (options (b.drop 240)).1 = none
    · simp [missing]
    · simp only [missing, if_false, Except.ok.injEq, not_false_eq_true, true_and]
      exact ⟨fun same => ⟨all, same.symm⟩, fun h => h.2.symm⟩

theorem byteAt_take (b : Bytes) {i n : Nat} (h : i < n) : byteAt (b.take n) i = byteAt b i := by
  simp only [byteAt, List.getD_eq_getElem?_getD, List.getElem?_take, if_pos h]

/-- The outcome depends on the header and on what the option loop does. -/
theorem parseDHCP_congr {b b' : Bytes} (long : 240 ≤ b.length) (long' : 240 ≤ b'.length)
    (header : b.take 240 = b'.take 240)
    (loop : ∀ ret, forOptions parseDHCPOption ret (b.drop 240) =
      forOptions parseDHCPOption ret (b'.drop 240)) : parseDHCP b = parseDHCP b' := by
  have bytes : ∀ i < 240, byteAt b i = byteAt b' i := by
    intro i below
    rw [← byteAt_take b below, header, byteAt_take b' below]
  have slices : ∀ lo hi, hi ≤ 240 → slice b lo hi = slice b' lo hi := by
    intro lo hi below
    rw [← slice_take b lo hi 240 below, header, slice_take b' lo hi 240 below]
  have short : ¬ b.length < 240 := by omega
  have short' : ¬ b'.length < 240 := by omega
  simp only [parseDHCP, if_neg short, if_neg short', bytes 0 (by omega), bytes 1 (by omega),
    bytes 2 (by omega), slices 4 8 (by omega), slices 28 34 (by omega), slices 236 240 (by omega),
    loop]

/-- Every GUID the parser stores has sixteen bytes. -/
theorem length_requestGUID {opts : List (UInt8 × Bytes)} {guid : Bytes}
    (all : ∀ o ∈ opts, Acceptable o) (h : requestGUID opts = some guid) : guid.length = 16 := by
  simp only [requestGUID, Option.map_eq_some_iff] at h
  obtain ⟨val, last, rfl⟩ := h
  have shape := (all _ (lastOption_mem last)).guid rfl
  rw [List.length_drop, shape.1]

/-- The fields have the lengths that the encoders write in front of them. -/
structure DHCPPacket.Sized (p : DHCPPacket) : Prop where
  tid : p.tid.length = 4
  mac : p.mac.length = 6
  guid : p.guidBytes.length = 16
  serverIP : p.serverIPBytes.length = 4

/-- An accepted request with a server address filled in has all its fields in size. -/
theorem sized_of_parseDHCP {b : Bytes} {p : DHCPPacket} (h : parseDHCP b = .ok p) (ip : IPv4) :
    DHCPPacket.Sized { p with serverIP := some ip } := by
  obtain ⟨long, -, -, -, all, present, rfl⟩ := (parseDHCP_ok_iff b p).mp h
  refine ⟨length_slice _ _ _ (by omega), length_slice _ _ _ (by omega), ?_, rfl⟩
  obtain ⟨guid, found⟩ := Option.ne_none_iff_exists'.mp present
  simp only [DHCPPacket.guidBytes, found, Option.getD_some]
  exact length_requestGUID all found

/-- The GUID of an accepted request is the one in its last option 97. -/
theorem requestGUID_of_parseDHCP {b : Bytes} {p : DHCPPacket} (h : parseDHCP b = .ok p) :
    requestGUID (options (b.drop 240)).1 = some p.guidBytes := by
  obtain ⟨-, -, -, -, -, present, rfl⟩ := (parseDHCP_ok_iff b p).mp h
  obtain ⟨guid, found⟩ := Option.ne_none_iff_exists'.mp present
  simp only [DHCPPacket.guidBytes, found, Option.getD_some]

end Pixiecore.Dhcp
