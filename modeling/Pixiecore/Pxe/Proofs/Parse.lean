import Pixiecore.Dhcp.Proofs.Parse
import Pixiecore.Pxe.Packet

/-!
# What `ParsePXE` accepts

`parsePXE_ok_iff` is the counterpart of `Dhcp.parseDHCP_ok_iff`. At the outer level
a later option overwrites an earlier one; inside an option 43 the first sub-option 71
wins.
-/

namespace Pixiecore.Pxe

open Dhcp

/-- The boot type in the value of one option 43: its first sub-option 71. -/
def menuChoice (o : UInt8 × Bytes) : Option Bytes :=
  if o.1 = 43 then (options o.2).1.findSome? (valueOf 71) else none

/-- The boot type of a request: that of its last option 43 that has one. -/
def requestBootType (opts : List (UInt8 × Bytes)) : Option Bytes := lastSome menuChoice opts

/-- The `switch` of `ParsePXE` lets this option pass. -/
def WellFormedGUID (o : UInt8 × Bytes) : Prop := o.1 = 97 → o.2.length = 17 ∧ byteAt o.2 0 = 0

theorem bootTypeLoop_eq (bootType : Option Bytes) (val : Bytes) :
    bootTypeLoop bootType val = ((options val).1.findSome? (valueOf 71)).or bootType := by
  induction val using options.induct with
  | case1 val stop =>
    rw [bootTypeLoop, dif_pos stop, options, dif_pos stop]
    rfl
  | case2 val more _ ih =>
    rw [bootTypeLoop, dif_neg more, options, dif_neg more, List.findSome?_cons, valueOf]
    by_cases chosen : (dhcpOption val).1 = 71
    · simp [chosen]
    · rw [if_neg chosen, if_neg chosen]
      exact ih

/-- What one round of the option loop stores. -/
def storeOption (ret : PXEPacket) (o : UInt8 × Bytes) : PXEPacket :=
  { ret with guid := ((valueOf 97 o).map (List.drop 1)).or ret.guid
             bootType := (menuChoice o).or ret.bootType }

theorem parsePXEOption_ok_iff (ret : PXEPacket) (o : UInt8 × Bytes) (ret' : PXEPacket) :
    parsePXEOption ret o.1 o.2 = .ok ret' ↔ WellFormedGUID o ∧ ret' = storeOption ret o := by
  obtain ⟨typ, val⟩ := o
  unfold parsePXEOption
  by_cases h43 : typ = 43
  · subst h43
    have good : WellFormedGUID (43, val) := by simp [WellFormedGUID]
    simp only [if_true, good, true_and, Except.ok.injEq, bootTypeLoop_eq]
    exact eq_comm
  by_cases h97 : typ = 97
  · subst h97
    have good : WellFormedGUID (97, val) ↔ val.length = 17 ∧ byteAt val 0 = 0 :=
      ⟨fun h => h rfl, fun h _ => h⟩
    rw [if_neg h43, if_pos rfl, good]
    by_cases shape : val.length = 17 ∧ byteAt val 0 = 0
    · simp only [shape, ne_eq, not_true_eq_false, or_self, if_false, and_self, true_and,
        Except.ok.injEq]
      exact eq_comm
    · have malformed : val.length ≠ 17 ∨ byteAt val 0 ≠ 0 := not_and_or.mp shape
      simp [malformed, shape]
  · have good : WellFormedGUID (typ, val) := fun h => absurd h h97
    have same : storeOption ret (typ, val) = ret := by
      simp [storeOption, menuChoice, valueOf, h43, h97]
    simp only [h43, h97, if_false, good, same, true_and, Except.ok.injEq]
    exact eq_comm

theorem foldl_storeOption (opts : List (UInt8 × Bytes)) (ret : PXEPacket) :
    opts.foldl storeOption ret =
      { ret with guid := (requestGUID opts).or ret.guid
                 bootType := (requestBootType opts).or ret.bootType } := by
  induction opts generalizing ret with
  | nil => rfl
  | cons o opts ih =>
    rw [List.foldl_cons, ih]
    simp only [requestGUID, requestBootType, lastOption, lastSome_cons, storeOption,
      Option.or_assoc]
    cases lastSome (valueOf 97) opts <;> simp

/-- When `ParsePXE` succeeds, and with what. -/
theorem parsePXE_ok_iff (b : Bytes) (p : PXEPacket) :
    parsePXE b = .ok p ↔
      240 ≤ b.length ∧ slice b 236 240 = dhcpMagic ∧
      (∀ o ∈ (options (b.drop 240)).1, WellFormedGUID o) ∧
      requestGUID (options (b.drop 240)).1 ≠ none ∧
      requestBootType (options (b.drop 240)).1 ≠ none ∧
      p = { tid := slice b 4 8, mac := slice b 28 34, clientIP := slice b 12 16,
            guid := requestGUID (options (b.drop 240)).1,
            bootType := requestBootType (options (b.drop 240)).1 } := by
  unfold parsePXE
  by_cases short : b.length < 240
  · have : ¬ 240 ≤ b.length := by omega
    simp [short, this]
  by_cases magic : slice b 236 240 = dhcpMagic
  swap
  · simp [short, magic]
  have long : 240 ≤ b.length := by omega
  have loop := forOptions_ok_iff parsePXEOption_ok_iff
    { tid := slice b 4 8, mac := slice b 28 34, clientIP := slice b 12 16 }
  simp only [foldl_storeOption, Option.or_none] at loop
  simp only [short, if_false, ne_eq, not_true_eq_false, magic, long, true_and]
  cases ran : forOptions parsePXEOption
      { tid := slice b 4 8, mac := slice b 28 34, clientIP := slice b 12 16 } (b.drop 240) with
  | error e =>
    have rejected := not_all_of_forOptions_error parsePXEOption_ok_iff ran
    simp only [reduceCtorEq, false_iff]
    exact fun h => rejected h.1
  | ok ret =>
    obtain ⟨all, rfl⟩ := (loop ret (b.drop 240)).mp ran
    by_cases noGUID : requestGUID (options (b.drop 240)).1 = none
    · simp [noGUID]
    by_cases noChoice : requestBootType (options (b.drop 240)).1 = none
    · simp [noGUID, noChoice]
    · simp only [noGUID, noChoice, if_false, Except.ok.injEq, not_false_eq_true, true_and]
      exact ⟨fun same => ⟨all, same.symm⟩, fun h => h.2.symm⟩

/-- The outcome depends on the header and on what the option loop does. -/
theorem parsePXE_congr {b b' : Bytes} (long : 240 ≤ b.length) (long' : 240 ≤ b'.length)
    (header : b.take 240 = b'.take 240)
    (loop : ∀ ret, forOptions parsePXEOption ret (b.drop 240) =
      forOptions parsePXEOption ret (b'.drop 240)) : parsePXE b = parsePXE b' := by
  have slices : ∀ lo hi, hi ≤ 240 → slice b lo hi = slice b' lo hi := by
    intro lo hi below
    rw [← slice_take b lo hi 240 below, header, slice_take b' lo hi 240 below]
  have short : ¬ b.length < 240 := by omega
  have short' : ¬ b'.length < 240 := by omega
  simp only [parsePXE, if_neg short, if_neg short', slices 4 8 (by omega), slices 28 34 (by omega),
    slices 12 16 (by omega), slices 236 240 (by omega), loop]

/-- The fields have the lengths that `ReplyPXE` writes in front of them, but for the boot
type, whose length the parser leaves open. -/
structure PXEPacket.Sized (p : PXEPacket) : Prop extends p.toDHCPPacket.Sized where
  clientIP : p.clientIP.length = 4
  httpServer : p.httpServer.length ≤ 255

theorem length_httpServerURL_le (ip : IPv4) (httpPort : Int64) :
    (httpServerURL ip httpPort).length ≤ 44 := by
  have hip := length_ipString_bytes_le ip
  have hport := length_itoa_le httpPort.toInt httpPort.le_toInt httpPort.toInt_lt
  have http : (ascii "http://").length = 7 := by decide
  have colon : (ascii ":").length = 1 := by decide
  have slash : (ascii "/").length = 1 := by decide
  simp only [httpServerURL, List.length_append, http, colon, slash]
  omega

theorem sized_of_parsePXE {b : Bytes} {p : PXEPacket} (h : parsePXE b = .ok p) (ip : IPv4)
    (httpPort : Int64) : (p.answeredBy ip httpPort).Sized := by
  obtain ⟨long, -, all, present, -, rfl⟩ := (parsePXE_ok_iff b p).mp h
  obtain ⟨guid, found⟩ := Option.ne_none_iff_exists'.mp present
  have url := length_httpServerURL_le ip httpPort
  refine ⟨⟨length_slice _ _ _ (by omega), length_slice _ _ _ (by omega), ?_, rfl⟩,
    length_slice _ _ _ (by omega), by simp only [PXEPacket.answeredBy]; omega⟩
  obtain ⟨val, last, rfl⟩ := Option.map_eq_some_iff.mp found
  have shape := all _ (lastOption_mem last) rfl
  simp [PXEPacket.answeredBy, DHCPPacket.guidBytes, requestGUID, last, shape.1]

/-- Where the fields of an accepted request come from. -/
theorem fields_of_parsePXE {b : Bytes} {p : PXEPacket} (h : parsePXE b = .ok p) :
    p.tid = slice b 4 8 ∧ p.mac = slice b 28 34 ∧ p.clientIP = slice b 12 16 ∧
      requestGUID (options (b.drop 240)).1 = some p.guidBytes ∧
      requestBootType (options (b.drop 240)).1 = some p.bootTypeBytes := by
  obtain ⟨-, -, -, hasGUID, hasChoice, rfl⟩ := (parsePXE_ok_iff b p).mp h
  obtain ⟨guid, foundGUID⟩ := Option.ne_none_iff_exists'.mp hasGUID
  obtain ⟨bootType, foundChoice⟩ := Option.ne_none_iff_exists'.mp hasChoice
  refine ⟨rfl, rfl, rfl, ?_, ?_⟩
  · simp only [DHCPPacket.guidBytes, foundGUID, Option.getD_some]
  · simp only [PXEPacket.bootTypeBytes, foundChoice, Option.getD_some]

end Pixiecore.Pxe
