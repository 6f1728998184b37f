import Mathlib.Data.List.Basic
import Mathlib.Data.List.Infix

/-!
# Byte strings

Go's `[]byte` and `string` are both sequences of octets, so one carrier serves
for both. This file has slicing, `copy` into a larger buffer, datagrams read into a
buffer, and the big-endian 16-bit numbers of `encoding/binary`. Slices and buffers are
plain lists; what a slice reads beyond its length is not represented here.
-/

namespace Pixiecore

/-- A sequence of octets. -/
abbrev Bytes := List UInt8

/-- The bytes of an ASCII literal. -/
def ascii (s : String) : Bytes :=
  s.toList.map (fun c => UInt8.ofNat c.toNat)

section Slice

variable {α : Type}

/-- Go's `b[lo:hi]` for `lo ≤ hi ≤ len(b)`. -/
def slice (b : List α) (lo hi : Nat) : List α :=
  (b.drop lo).take (hi - lo)

theorem length_slice (b : List α) (lo hi : Nat) (h : hi ≤ b.length) :
    (slice b lo hi).length = hi - lo := by
  simp only [slice, List.length_take, List.length_drop]
  omega

theorem getElem?_slice (b : List α) (lo hi i : Nat) :
    (slice b lo hi)[i]? = if i < hi - lo then b[lo + i]? else none := by
  simp only [slice, List.getElem?_take, List.getElem?_drop]

theorem slice_take (b : List α) (lo hi n : Nat) (h : hi ≤ n) :
    slice (b.take n) lo hi = slice b lo hi := by
  apply List.ext_getElem?
  intro i
  simp only [getElem?_slice, List.getElem?_take]
  split
  · rw [if_pos (by omega)]
  · rfl

/-- A slice that ends inside the left part of an append never sees the right part. -/
theorem slice_append_left (a b : List α) (lo hi : Nat) (h : hi ≤ a.length) :
    slice (a ++ b) lo hi = slice a lo hi := by
  apply List.ext_getElem?
  intro i
  simp only [getElem?_slice]
  split
  · rw [List.getElem?_append_left (by omega)]
  · rfl

/-- A slice that starts right after the left part of an append lies in the right part. -/
theorem slice_append_right (a b : List α) (lo hi : Nat) (h : a.length ≤ lo) :
    slice (a ++ b) lo hi = slice b (lo - a.length) (hi - a.length) := by
  apply List.ext_getElem?
  intro i
  simp only [getElem?_slice]
  rw [List.getElem?_append_right (by omega)]
  by_cases hi' : i < hi - lo
  · rw [if_pos hi', if_pos (by omega)]
    congr 1
    omega
  · rw [if_neg hi', if_neg (by omega)]

/-- Go's `copy(dst[off:], src)` for `off ≤ len(dst)`: as much of `src` as fits
replaces what `dst` has from `off` on. -/
def copyAt (dst : List α) (off : Nat) (src : List α) : List α :=
  dst.take off ++ src.take (dst.length - off) ++ dst.drop (off + src.length)

@[simp] theorem length_copyAt (dst : List α) (off : Nat) (src : List α) :
    (copyAt dst off src).length = dst.length := by
  simp only [copyAt, List.length_append, List.length_take, List.length_drop]
  omega

/-- What every position of a buffer holds after a `copy`. -/
theorem getElem?_copyAt (dst : List α) (off : Nat) (src : List α) (i : Nat)
    (h : off + src.length ≤ dst.length) :
    (copyAt dst off src)[i]? =
      if off ≤ i ∧ i < off + src.length then src[i - off]? else dst[i]? := by
  have fits : src.take (dst.length - off) = src := List.take_of_length_le (by omega)
  have pre : (dst.take off).length = off := by
    rw [List.length_take]
    omega
  rw [copyAt, fits, List.append_assoc]
  by_cases before : i < off
  · rw [if_neg (by omega), List.getElem?_append_left (by omega), List.getElem?_take,
      if_pos before]
  · rw [List.getElem?_append_right (by omega), pre]
    by_cases inside : i < off + src.length
    · rw [if_pos ⟨by omega, inside⟩, List.getElem?_append_left (by omega)]
    · rw [if_neg (by omega), List.getElem?_append_right (by omega), List.getElem?_drop]
      congr 1
      omega

/-- Reading back the region that was just copied. -/
theorem slice_copyAt_same (dst : List α) (off hi : Nat) (src : List α)
    (h : off + src.length ≤ dst.length) (hhi : hi = off + src.length) :
    slice (copyAt dst off src) off hi = src := by
  subst hhi
  apply List.ext_getElem?
  intro i
  rw [getElem?_slice, getElem?_copyAt _ _ _ _ h]
  by_cases inside : i < src.length
  · rw [if_pos (by omega), if_pos (by omega)]
    congr 1
    omega
  · rw [if_neg (by omega), List.getElem?_eq_none (by omega)]

/-- A `copy` leaves every region it does not overlap as it was. -/
theorem slice_copyAt_disjoint (dst : List α) (off lo hi : Nat) (src : List α)
    (h : off + src.length ≤ dst.length) (hd : hi ≤ off ∨ off + src.length ≤ lo) :
    slice (copyAt dst off src) lo hi = slice dst lo hi := by
  apply List.ext_getElem?
  intro i
  rw [getElem?_slice, getElem?_slice, getElem?_copyAt _ _ _ _ h]
  split
  · rw [if_neg (by omega)]
  · rfl

/-- A sequence of copies into one buffer, each an offset and a source. -/
def copyAll (dst : List α) (ws : List (Nat × List α)) : List α :=
  ws.foldl (fun dst w => copyAt dst w.1 w.2) dst

@[simp] theorem length_copyAll (dst : List α) (ws : List (Nat × List α)) :
    (copyAll dst ws).length = dst.length := by
  induction ws generalizing dst with
  | nil => rfl
  | cons w ws ih => exact (ih _).trans (length_copyAt _ _ _)

/-- The regions two copies write do not overlap. -/
def Apart (w v : Nat × List α) : Prop := w.1 + w.2.length ≤ v.1 ∨ v.1 + v.2.length ≤ w.1

/-- A region that none of the copies touches stays as it was. -/
theorem slice_copyAll_disjoint (dst : List α) (ws : List (Nat × List α)) (lo hi : Nat)
    (fits : ∀ w ∈ ws, w.1 + w.2.length ≤ dst.length)
    (away : ∀ w ∈ ws, hi ≤ w.1 ∨ w.1 + w.2.length ≤ lo) :
    slice (copyAll dst ws) lo hi = slice dst lo hi := by
  induction ws generalizing dst with
  | nil => rfl
  | cons w ws ih =>
    rw [List.forall_mem_cons] at fits away
    have rest := ih (copyAt dst w.1 w.2) (by simpa using fits.2) away.2
    exact rest.trans (slice_copyAt_disjoint _ _ _ _ _ fits.1 away.1)

/-- Copies into regions that do not overlap can each be read back. -/
theorem slice_copyAll_mem (dst : List α) (ws : List (Nat × List α)) {off hi : Nat} {src : List α}
    (member : (off, src) ∈ ws) (hhi : hi = off + src.length)
    (fits : ∀ w ∈ ws, w.1 + w.2.length ≤ dst.length) (apart : ws.Pairwise Apart) :
    slice (copyAll dst ws) off hi = src := by
  subst hhi
  induction ws generalizing dst with
  | nil => cases member
  | cons w ws ih =>
    rw [List.forall_mem_cons] at fits
    rw [List.pairwise_cons] at apart
    have fits' : ∀ v ∈ ws, v.1 + v.2.length ≤ (copyAt dst w.1 w.2).length := by
      simpa using fits.2
    rcases List.mem_cons.mp member with rfl | later
    · exact (slice_copyAll_disjoint _ ws _ _ fits' apart.1).trans
        (slice_copyAt_same _ _ _ _ fits.1 rfl)
    · exact ih _ later fits' apart.2

/-- The part of a buffer in front of a `copy`. -/
theorem take_copyAt (dst : List α) (off : Nat) (src : List α) (h : off ≤ dst.length) :
    (copyAt dst off src).take off = dst.take off := by
  rw [copyAt, List.append_assoc, List.take_left']
  rw [List.length_take]
  omega

/-- A buffer up to the end of what was just copied into it. -/
theorem take_copyAt_end (dst : List α) (off : Nat) (src : List α)
    (h : off + src.length ≤ dst.length) :
    (copyAt dst off src).take (off + src.length) = dst.take off ++ src := by
  have fits : src.take (dst.length - off) = src := List.take_of_length_le (by omega)
  rw [copyAt, fits, List.take_left']
  simp only [List.length_append, List.length_take]
  omega

/-- A datagram read into a buffer overwrites the front of it with as much as fits. The result is
the buffer afterwards, and the front that was written. -/
def readFrom (buf data : List α) : List α × List α :=
  let buf' := copyAt buf 0 data
  (buf', buf'.take (min data.length buf.length))

/-- What was read is the datagram, cut off at the size of the buffer. -/
theorem readFrom_snd (buf data : List α) : (readFrom buf data).2 = data.take buf.length := by
  simp only [readFrom, copyAt, List.take_zero, List.nil_append, Nat.sub_zero]
  by_cases fits : data.length ≤ buf.length
  · rw [Nat.min_eq_left fits, List.take_of_length_le fits, List.take_left]
  · rw [Nat.min_eq_right (by omega), List.take_left']
    rw [List.length_take, Nat.min_eq_left (by omega)]

end Slice

/-- `binary.BigEndian.PutUint16` as the two bytes it stores. -/
def bigEndian16 (n : UInt16) : Bytes :=
  [UInt8.ofNat (n.toNat / 256), UInt8.ofNat n.toNat]

/-- `binary.BigEndian.Uint16`: the first two bytes as a number. -/
def uint16 : Bytes → UInt16
  | hi :: lo :: _ => UInt16.ofNat (hi.toNat * 256 + lo.toNat)
  | _ => 0

@[simp] theorem length_bigEndian16 (n : UInt16) : (bigEndian16 n).length = 2 := rfl

/-- Decoding the two bytes `PutUint16` stored gives the number back. -/
@[simp] theorem uint16_bigEndian16 (n : UInt16) (rest : Bytes) :
    uint16 (bigEndian16 n ++ rest) = n := by
  have bound : n.toNat < 65536 := n.toNat_lt
  apply UInt16.toNat_inj.mp
  simp only [bigEndian16, List.cons_append, uint16, UInt8.toNat_ofNat', UInt16.toNat_ofNat']
  omega

/-- Only the first two bytes matter to `Uint16`. -/
theorem uint16_take (b : Bytes) (n : Nat) (h : 2 ≤ n) : uint16 (b.take n) = uint16 b := by
  obtain ⟨k, rfl⟩ : ∃ k, n = k + 2 := ⟨n - 2, by omega⟩
  rcases b with _ | ⟨hi, _ | ⟨lo, rest⟩⟩ <;> simp [uint16]

end Pixiecore
