import Pixiecore.Misc.Bytes

/-!
# Base64 for URLs

The URL-safe alphabet with padding. The decoder skips line breaks wherever they stand,
as Go's does, and does not look at the unused bits of the last digit.
-/

namespace Pixiecore.Base64

/-- The digits, by value. -/
def alphabet : Bytes :=
  ascii "ABCDEFGHIJKLMNOPQRSTUVWXYZabcdefghijklmnopqrstuvwxyz0123456789-_"

/-- `=`. -/
def pad : UInt8 := 61

def digit (n : Nat) : UInt8 := alphabet.getD n 0

def value? (c : UInt8) : Option Nat := alphabet.idxOf? c

def encode : Bytes → Bytes
  | [] => []
  | [a] => [digit (a.toNat / 4), digit (a.toNat % 4 * 16), pad, pad]
  | [a, b] =>
    [digit (a.toNat / 4), digit (a.toNat % 4 * 16 + b.toNat / 16), digit (b.toNat % 16 * 4), pad]
  | a :: b :: c :: rest =>
    digit (a.toNat / 4) :: digit (a.toNat % 4 * 16 + b.toNat / 16) ::
      digit (b.toNat % 16 * 4 + c.toNat / 64) :: digit (c.toNat % 64) :: encode rest

/-- Groups of four digits, of which the last may be padded. -/
def decodeGroups : Bytes → Option Bytes
  | [] => some []
  | a :: b :: c :: d :: rest => do
    let a ← value? a
    let b ← value? b
    if d = pad then
      if rest ≠ [] then none
      else if c = pad then some [UInt8.ofNat (a * 4 + b / 16)]
      else do
        let c ← value? c
        some [UInt8.ofNat (a * 4 + b / 16), UInt8.ofNat (b * 16 + c / 4)]
    else do
      let c ← value? c
      let d ← value? d
      let rest ← decodeGroups rest
      some (UInt8.ofNat (a * 4 + b / 16) :: UInt8.ofNat (b * 16 + c / 4) ::
        UInt8.ofNat (c * 64 + d) :: rest)
  | _ => none

def decode (s : Bytes) : Option Bytes := decodeGroups (s.filter (fun c => c ≠ 10 ∧ c ≠ 13))

/-! ## Digits -/

/-- The digits by their codes. -/
theorem alphabet_eq : alphabet = (List.range' 65 26 ++ List.range' 97 26 ++ List.range' 48 10 ++
    [45, 95]).map UInt8.ofNat := by decide +kernel

theorem digits (n : Nat) (h : n < 64) :
    value? (digit n) = some n ∧ digit n ≠ pad ∧ digit n ∈ alphabet := by
  have all : ∀ i : Fin 64, value? (digit i) = some i.val ∧ digit i ≠ pad ∧ digit i ∈ alphabet := by
    simp only [value?, digit, alphabet_eq]
    decide +kernel
  exact all ⟨n, h⟩

theorem value?_digit {n : Nat} (h : n < 64) : value? (digit n) = some n := (digits n h).1

theorem digit_ne_pad {n : Nat} (h : n < 64) : digit n ≠ pad := (digits n h).2.1

theorem digit_mem {n : Nat} (h : n < 64) : digit n ∈ alphabet := (digits n h).2.2

/-- All digits come after the comma, and so after newlines and spaces. -/
theorem lt_of_mem_alphabet {c : UInt8} (member : c ∈ alphabet) : 44 < c := by
  have all : alphabet.all (fun c => 44 < c) = true := by
    rw [alphabet_eq]
    decide +kernel
  exact of_decide_eq_true (List.all_eq_true.mp all c member)

theorem ofNat_eq {n : Nat} {a : UInt8} (h : n % 256 = a.toNat) : UInt8.ofNat n = a := by
  apply UInt8.toNat_inj.mp
  rw [UInt8.toNat_ofNat', ← h]

/-! ## Round trip -/

/-- Only digits and padding. -/
theorem mem_encode {b : Bytes} {c : UInt8} (h : c ∈ encode b) : c ∈ alphabet ∨ c = pad := by
  induction b using encode.induct with
  | case1 => cases h
  | case2 a =>
    have := a.toNat_lt
    simp only [encode, List.mem_cons, List.not_mem_nil, or_false] at h
    rcases h with is | is | is | is
    · exact Or.inl (is ▸ digit_mem (by omega))
    · exact Or.inl (is ▸ digit_mem (by omega))
    · exact Or.inr is
    · exact Or.inr is
  | case3 a b =>
    have := a.toNat_lt
    have := b.toNat_lt
    simp only [encode, List.mem_cons, List.not_mem_nil, or_false] at h
    rcases h with is | is | is | is
    · exact Or.inl (is ▸ digit_mem (by omega))
    · exact Or.inl (is ▸ digit_mem (by omega))
    · exact Or.inl (is ▸ digit_mem (by omega))
    · exact Or.inr is
  | case4 a b d rest ih =>
    have := a.toNat_lt
    have := b.toNat_lt
    have := d.toNat_lt
    simp only [encode, List.mem_cons] at h
    rcases h with is | is | is | is | member
    · exact Or.inl (is ▸ digit_mem (by omega))
    · exact Or.inl (is ▸ digit_mem (by omega))
    · exact Or.inl (is ▸ digit_mem (by omega))
    · exact Or.inl (is ▸ digit_mem (by omega))
    · exact ih member

theorem lt_of_mem_encode {b : Bytes} {c : UInt8} (member : c ∈ encode b) : 44 < c := by
  rcases mem_encode member with digit | isPad
  · exact lt_of_mem_alphabet digit
  · rw [isPad]
    decide

theorem decodeGroups_one {i j : Nat} (hi : i < 64) (hj : j < 64) :
    decodeGroups [digit i, digit j, pad, pad] = some [UInt8.ofNat (i * 4 + j / 16)] := by
  simp [decodeGroups, value?_digit hi, value?_digit hj]

theorem decodeGroups_two {i j k : Nat} (hi : i < 64) (hj : j < 64) (hk : k < 64) :
    decodeGroups [digit i, digit j, digit k, pad] =
      some [UInt8.ofNat (i * 4 + j / 16), UInt8.ofNat (j * 16 + k / 4)] := by
  simp [decodeGroups, value?_digit hi, value?_digit hj, value?_digit hk, digit_ne_pad hk]

theorem decodeGroups_three {i j k l : Nat} (hi : i < 64) (hj : j < 64) (hk : k < 64)
    (hl : l < 64) (rest : Bytes) :
    decodeGroups (digit i :: digit j :: digit k :: digit l :: rest) =
      (decodeGroups rest).map ([UInt8.ofNat (i * 4 + j / 16), UInt8.ofNat (j * 16 + k / 4),
        UInt8.ofNat (k * 64 + l)] ++ ·) := by
  rcases decoded : decodeGroups rest with _ | tail <;>
    simp [decodeGroups, value?_digit hi, value?_digit hj, value?_digit hk, value?_digit hl,
      digit_ne_pad hl, decoded]

theorem decodeGroups_encode (b : Bytes) : decodeGroups (encode b) = some b := by
  induction b using encode.induct with
  | case1 => rfl
  | case2 a =>
    have := a.toNat_lt
    rw [encode, decodeGroups_one (by omega) (by omega)]
    rw [ofNat_eq (a := a) (by omega)]
  | case3 a b =>
    have := a.toNat_lt
    have := b.toNat_lt
    rw [encode, decodeGroups_two (by omega) (by omega) (by omega)]
    rw [ofNat_eq (a := a) (by omega), ofNat_eq (a := b) (by omega)]
  | case4 a b c rest ih =>
    have := a.toNat_lt
    have := b.toNat_lt
    have := c.toNat_lt
    rw [encode, decodeGroups_three (by omega) (by omega) (by omega) (by omega), ih]
    rw [ofNat_eq (a := a) (by omega), ofNat_eq (a := b) (by omega), ofNat_eq (a := c) (by omega)]
    rfl

/-- Decoding undoes encoding. -/
theorem decode_encode (b : Bytes) : decode (encode b) = some b := by
  have plain : ∀ c ∈ encode b, decide (c ≠ 10 ∧ c ≠ 13) = true := by
    intro c member
    have after := lt_of_mem_encode member
    apply decide_eq_true
    constructor
    · rintro rfl
      exact absurd after (by decide)
    · rintro rfl
      exact absurd after (by decide)
  rw [decode, List.filter_eq_self.mpr plain, decodeGroups_encode]

theorem encode_ne_nil {b : Bytes} (h : b ≠ []) : encode b ≠ [] := by
  intro empty
  have back := decode_encode b
  rw [empty] at back
  exact h (Option.some.inj back).symm

example : encode (ascii "kernel") = ascii "a2VybmVs" := by decide +kernel

end Pixiecore.Base64
