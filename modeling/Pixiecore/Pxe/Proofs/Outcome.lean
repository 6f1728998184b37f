import Pixiecore.Dhcp.Proofs.Outcome
import Pixiecore.Pxe.Proofs.Reply

/-!
# The outcome of `ParsePXE`

In terms of the options and, inside option 43, the sub-options that the two loops visit. Of
several GUIDs the last is stored. Of several boot types in one option 43 the first counts, but a
later option 43 that has one overrides an earlier one.
-/

namespace Pixiecore.Pxe

open Dhcp

/-- The option is the first one of its type. -/
def IsFirst (typ : UInt8) (opts : List (UInt8 × Bytes)) (val : Bytes) : Prop :=
  ∃ front back, opts = front ++ (typ, val) :: back ∧ ∀ o ∈ front, o.1 ≠ typ

/-- The value of an option 43 holds a boot type. -/
def HasBootType (val : Bytes) : Prop := ∃ sub, (71, sub) ∈ (options val).1

/-- The value is that of the last option 43 that holds a boot type. -/
def IsLastMenu (opts : List (UInt8 × Bytes)) (val : Bytes) : Prop :=
  ∃ front back, opts = front ++ (43, val) :: back ∧ HasBootType val ∧
    ∀ val', (43, val') ∈ back → ¬ HasBootType val'

theorem findSome?_valueOf_eq_some_iff {typ : UInt8} {opts : List (UInt8 × Bytes)} {val : Bytes} :
    opts.findSome? (valueOf typ) = some val ↔ IsFirst typ opts val := by
  rw [List.findSome?_eq_some_iff]
  constructor
  · intro ⟨front, o, back, split, found, silent⟩
    rw [valueOf_eq_some_iff.mp found] at split
    exact ⟨front, back, split, fun y member => valueOf_eq_none_iff.mp (silent y member)⟩
  · intro ⟨front, back, split, others⟩
    exact ⟨front, (typ, val), back, split, valueOf_eq_some_iff.mpr rfl,
      fun y member => valueOf_eq_none_iff.mpr (others y member)⟩

theorem IsFirst.mem {typ : UInt8} {opts : List (UInt8 × Bytes)} {val : Bytes}
    (first : IsFirst typ opts val) : (typ, val) ∈ opts := by
  obtain ⟨front, back, split, _⟩ := first
  rw [split]
  exact List.mem_append_right _ List.mem_cons_self

theorem menuChoice_eq_some_iff {o : UInt8 × Bytes} {sub : Bytes} :
    menuChoice o = some sub ↔ o.1 = 43 ∧ IsFirst 71 (options o.2).1 sub := by
  rw [menuChoice, Option.ite_none_right_eq_some, findSome?_valueOf_eq_some_iff]

theorem menuChoice_eq_none_iff {o : UInt8 × Bytes} :
    menuChoice o = none ↔ (o.1 = 43 → ¬ HasBootType o.2) := by
  rw [menuChoice, ite_eq_right_iff]
  apply imp_congr_right
  intro _
  rw [List.findSome?_eq_none_iff]
  constructor
  · intro silent has
    obtain ⟨sub, member⟩ := has
    exact valueOf_eq_none_iff.mp (silent _ member) rfl
  · intro none o' member
    rw [valueOf_eq_none_iff]
    intro is
    exact none ⟨o'.2, by rwa [← is]⟩

/-- Which boot type is stored. -/
theorem requestBootType_eq_some {opts : List (UInt8 × Bytes)} {sub : Bytes}
    (found : requestBootType opts = some sub) :
    ∃ val, IsLastMenu opts val ∧ IsFirst 71 (options val).1 sub := by
  obtain ⟨front, o, back, split, chosen, silent⟩ := lastSome_eq_some_iff.mp found
  obtain ⟨is, first⟩ := menuChoice_eq_some_iff.mp chosen
  refine ⟨o.2, ⟨front, back, ?_, ⟨sub, first.mem⟩, ?_⟩, first⟩
  · rw [split, ← is]
  · intro val' member
    exact menuChoice_eq_none_iff.mp (silent _ member) rfl

theorem requestBootType_ne_none_iff {opts : List (UInt8 × Bytes)} :
    requestBootType opts ≠ none ↔ ∃ val, (43, val) ∈ opts ∧ HasBootType val := by
  rw [requestBootType, Ne, lastSome_eq_none]
  constructor
  · intro notAll
    by_contra none
    apply notAll
    intro o member
    rw [menuChoice_eq_none_iff]
    intro is has
    exact none ⟨o.2, by rwa [← is], has⟩
  · intro some silent
    obtain ⟨val, member, has⟩ := some
    exact menuChoice_eq_none_iff.mp (silent _ member) rfl has

/-- What `ParsePXE` makes of a packet. -/
theorem parsePXE_outcome (b : Bytes) :
    ((∃ p, parsePXE b = .ok p) ↔
      240 ≤ b.length ∧ slice b 236 240 = dhcpMagic ∧
      (∀ val, (97, val) ∈ packetOptions b → val.length = 17 ∧ byteAt val 0 = 0) ∧
      (∃ val, (97, val) ∈ packetOptions b) ∧
      ∃ val, (43, val) ∈ packetOptions b ∧ HasBootType val) ∧
    ∀ p, parsePXE b = .ok p →
      p.tid = slice b 4 8 ∧ p.mac = slice b 28 34 ∧ p.clientIP = slice b 12 16 ∧
      (∃ val, IsLast 97 (packetOptions b) val ∧ p.guid = some (slice val 1 17)) ∧
      ∃ val sub, IsLastMenu (packetOptions b) val ∧ IsFirst 71 (options val).1 sub ∧
        p.bootType = some sub := by
  have wellFormed : (∀ o ∈ packetOptions b, WellFormedGUID o) ↔
      ∀ val, (97, val) ∈ packetOptions b → val.length = 17 ∧ byteAt val 0 = 0 := by
    constructor
    · intro all val member
      exact all _ member rfl
    · intro all o member is
      exact all o.2 (by rwa [← is])
  constructor
  · rw [← wellFormed, ← requestGUID_ne_none_iff, ← requestBootType_ne_none_iff]
    constructor
    · intro ⟨p, accepted⟩
      obtain ⟨long, magic, all, guid, bootType, -⟩ := (parsePXE_ok_iff b p).mp accepted
      exact ⟨long, magic, all, guid, bootType⟩
    · intro ⟨long, magic, all, guid, bootType⟩
      exact ⟨_, (parsePXE_ok_iff b _).mpr ⟨long, magic, all, guid, bootType, rfl⟩⟩
  · intro p accepted
    obtain ⟨-, -, all, guid, bootType, rfl⟩ := (parsePXE_ok_iff b p).mp accepted
    refine ⟨rfl, rfl, rfl, ?_, ?_⟩
    · exact requestGUID_of_last (fun val member => (wellFormed.mp all val member).1) guid
    · obtain ⟨sub, found⟩ := Option.ne_none_iff_exists'.mp bootType
      obtain ⟨val, last, first⟩ := requestBootType_eq_some found
      exact ⟨val, sub, last, first, found⟩

/-- A client that sends the usual four bytes. -/
theorem parsePXE_outcome_menuRequest :
    parsePXE (menuRequest [0x80, 0, 0, 0]) = .ok (menuRequested [0x80, 0, 0, 0]) ∧
      ∃ val sub, IsLastMenu (packetOptions (menuRequest [0x80, 0, 0, 0])) val ∧
        IsFirst 71 (options val).1 sub ∧ sub = [0x80, 0, 0, 0] := by
  obtain ⟨-, -, -, -, val, sub, last, first, stored⟩ :=
    (parsePXE_outcome (menuRequest [0x80, 0, 0, 0])).2 _ parsePXE_menuRequest
  exact ⟨parsePXE_menuRequest, val, sub, last, first, (Option.some.inj stored).symm⟩

end Pixiecore.Pxe
