import Pixiecore.Misc.Bytes

/-!
# Type-length-value lists

A list of items, each a type byte, a length byte and that many bytes of value,
ended by a type byte `stop` that has neither length nor value. `split` reads as
many items as the bytes hold and returns what it could not read: nothing, a lone
byte, bytes that start with `stop`, or an item that is cut off.

The value of a `Tlv` fits its length byte and its type is not the stop byte, so
every `Tlv` can be written and read back (`split_encodeAll`), and every byte
string is one list of items followed by one unreadable tail (`decomposition_unique`).
-/

namespace Pixiecore

/-- One item of a list that ends with `stop`. -/
structure Tlv (stop : UInt8) where
  typ : UInt8
  val : Bytes
  typ_ne : typ ≠ stop
  len_le : val.length ≤ 255

namespace Tlv

variable {stop : UInt8}

@[ext] theorem ext {o p : Tlv stop} (htyp : o.typ = p.typ) (hval : o.val = p.val) : o = p := by
  cases o
  cases p
  simp only at htyp hval
  subst htyp hval
  rfl

/-- The type and the value, without the facts about them. -/
def pair (o : Tlv stop) : UInt8 × Bytes := (o.typ, o.val)

/-- The bytes of one item. -/
def encode (o : Tlv stop) : Bytes := o.typ :: UInt8.ofNat o.val.length :: o.val

/-- The bytes of a list of items, without the stop byte. -/
def encodeAll (os : List (Tlv stop)) : Bytes := os.flatMap encode

theorem length_take_toNat_le (len : UInt8) (rest : Bytes) :
    (rest.take len.toNat).length ≤ 255 := by
  have small := len.toNat_lt
  rw [List.length_take]
  omega

/-- The first item and what follows it. -/
def next? (stop : UInt8) : Bytes → Option (Tlv stop × Bytes)
  | typ :: len :: rest =>
    if h : typ ≠ stop ∧ len.toNat ≤ rest.length then
      some (⟨typ, rest.take len.toNat, h.1, length_take_toNat_le len rest⟩, rest.drop len.toNat)
    else none
  | _ => none

/-- No item starts here. -/
def Stuck (stop : UInt8) (b : Bytes) : Prop := next? stop b = none

/-- What an unreadable tail looks like: too short for a type and a length, the stop byte in
front, or fewer bytes than the length says. -/
theorem stuck_iff {b : Bytes} :
    Stuck stop b ↔ b.length < 2 ∨ b.head? = some stop ∨
      ∃ typ len rest, b = typ :: len :: rest ∧ rest.length < len.toNat := by
  rcases b with _ | ⟨typ, _ | ⟨len, rest⟩⟩
  · exact iff_of_true rfl (.inl Nat.two_pos)
  · exact iff_of_true rfl (.inl Nat.one_lt_two)
  · rw [Stuck, next?, dite_eq_right_iff]
    constructor
    · intro unread
      by_cases isStop : typ = stop
      · exact .inr (.inl (congrArg some isStop))
      · refine .inr (.inr ⟨typ, len, rest, rfl, ?_⟩)
        by_contra enough
        cases unread ⟨isStop, Nat.le_of_not_lt enough⟩
    · rintro (short | isStop | ⟨typ', len', rest', same, short⟩) readable
      · simp only [List.length_cons] at short
        omega
      · exact absurd (Option.some.inj isStop) readable.1
      · cases same
        omega

theorem next?_shortens {b rest : Bytes} {o : Tlv stop} (h : next? stop b = some (o, rest)) :
    rest.length < b.length := by
  rcases b with _ | ⟨typ, _ | ⟨len, body⟩⟩
  · cases h
  · cases h
  · rw [next?] at h
    split at h
    · simp only [Option.some.injEq, Prod.mk.injEq] at h
      rw [← h.2]
      simp only [List.length_drop, List.length_cons]
      omega
    · cases h

/-- Reading an item off the front of its own bytes. -/
theorem next?_encode (o : Tlv stop) (rest : Bytes) :
    next? stop (o.encode ++ rest) = some (o, rest) := by
  have len : (UInt8.ofNat o.val.length).toNat = o.val.length := by
    have := o.len_le
    rw [UInt8.toNat_ofNat']
    omega
  rw [encode, List.cons_append, List.cons_append, next?, dif_pos]
  · simp only [len, List.take_left, List.drop_left]
  · refine ⟨o.typ_ne, ?_⟩
    rw [len, List.length_append]
    omega

/-- Whatever item was read, its bytes are what was consumed. -/
theorem encode_next? {b rest : Bytes} {o : Tlv stop} (h : next? stop b = some (o, rest)) :
    b = o.encode ++ rest := by
  rcases b with _ | ⟨typ, _ | ⟨len, body⟩⟩
  · cases h
  · cases h
  · rw [next?] at h
    split at h
    · rename_i readable
      simp only [Option.some.injEq, Prod.mk.injEq] at h
      obtain ⟨rfl, rfl⟩ := h
      have same : UInt8.ofNat (body.take len.toNat).length = len := by
        rw [List.length_take, Nat.min_eq_left readable.2]
        exact UInt8.ofNat_toNat
      simp only [encode, same, List.cons_append, List.take_append_drop]
    · cases h

/-- All items that can be read off the front, and what is left. -/
def split (stop : UInt8) (b : Bytes) : List (Tlv stop) × Bytes :=
  match h : next? stop b with
  | none => ([], b)
  | some (o, rest) =>
    have : rest.length < b.length := next?_shortens h
    (o :: (split stop rest).1, (split stop rest).2)
termination_by b.length

theorem split_stuck {b : Bytes} (h : Stuck stop b) : split stop b = ([], b) := by
  rw [split]
  split
  · rfl
  · rename_i o rest found
    exact absurd (h.symm.trans found) (by simp)

theorem split_next {b rest : Bytes} {o : Tlv stop} (h : next? stop b = some (o, rest)) :
    split stop b = (o :: (split stop rest).1, (split stop rest).2) := by
  rw [split]
  split
  · rename_i stuck
    exact absurd (stuck.symm.trans h) (by simp)
  · rename_i o' rest' found
    have same := found.symm.trans h
    simp only [Option.some.injEq, Prod.mk.injEq] at same
    obtain ⟨rfl, rfl⟩ := same
    rfl

theorem split_encode_append (o : Tlv stop) (rest : Bytes) :
    split stop (o.encode ++ rest) = (o :: (split stop rest).1, (split stop rest).2) :=
  split_next (next?_encode o rest)

/-- Reading a written list gives the list back, and stops where it ends. -/
theorem split_encodeAll (os : List (Tlv stop)) {tail : Bytes} (h : Stuck stop tail) :
    split stop (encodeAll os ++ tail) = (os, tail) := by
  induction os with
  | nil => exact split_stuck h
  | cons o os ih =>
    have front : encodeAll (o :: os) ++ tail = o.encode ++ (encodeAll os ++ tail) := by
      simp only [encodeAll, List.flatMap_cons, List.append_assoc]
    rw [front, split_encode_append, ih]

/-- The items read and the tail are the bytes they came from, and no item is left unread. -/
theorem split_spec (b : Bytes) :
    encodeAll (split stop b).1 ++ (split stop b).2 = b ∧ Stuck stop (split stop b).2 := by
  induction b using split.induct stop with
  | case1 b stuck =>
    rw [split_stuck stuck]
    exact ⟨rfl, stuck⟩
  | case2 b o rest found _ ih =>
    rw [split_next found]
    refine ⟨?_, ih.2⟩
    simp only [encodeAll, List.flatMap_cons, List.append_assoc] at ih ⊢
    rw [ih.1]
    exact (encode_next? found).symm

/-- There is only one way to take a byte string apart into items and an unreadable tail. -/
theorem decomposition_unique {b tail : Bytes} {os : List (Tlv stop)}
    (h : b = encodeAll os ++ tail) (stuck : Stuck stop tail) : split stop b = (os, tail) := by
  rw [h]
  exact split_encodeAll os stuck

theorem stuck_stop (rest : Bytes) : Stuck stop (stop :: rest) := by
  cases rest with
  | nil => rfl
  | cons len rest =>
    rw [Stuck, next?, dif_neg]
    simp

end Tlv

end Pixiecore
