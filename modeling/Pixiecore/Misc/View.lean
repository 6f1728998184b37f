import Pixiecore.Misc.Bytes

/-!
# Slices of an array

A slice is a part of an array, together with what of the array lies behind it: an index must
be below the length, but reslicing may go on to the capacity, and so may reach bytes that are
not in the slice. An access that is out of bounds stops the program, which is the result
`none`; `Returns` says that this does not happen, and what is known of the result.

`View.bytes` is what a slice holds. The rules for `index`, `sub`, `take` and `drop` say that
within the length a slice behaves like the list of its bytes. An array that is received into
over and over again is a `Memory`, and `rounds` is the loop around it.
-/

namespace Pixiecore

/-! ## Computations that may stop -/

/-- The computation does not stop, and its result satisfies `post`. -/
def Returns {α : Type} (r : Option α) (post : α → Prop) : Prop := ∃ x, r = some x ∧ post x

section Returns

variable {α β : Type} {r : Option α} {P Q : α → Prop}

theorem returns_some {x : α} (holds : P x) : Returns (some x) P := ⟨x, rfl, holds⟩

theorem Returns.mono (returns : Returns r P) (weaker : ∀ x, P x → Q x) : Returns r Q := by
  obtain ⟨x, same, holds⟩ := returns
  exact ⟨x, same, weaker x holds⟩

theorem Returns.ne_none (returns : Returns r P) : r ≠ none := by
  obtain ⟨x, same, _⟩ := returns
  rw [same]
  exact Option.some_ne_none x

theorem Returns.holds {x : α} (returns : Returns r P) (same : r = some x) : P x := by
  obtain ⟨y, same', holds⟩ := returns
  cases same.symm.trans same'
  exact holds

theorem Returns.bind {f : α → Option β} {goal : β → Prop} (first : Returns r P)
    (second : ∀ x, P x → Returns (f x) goal) : Returns (r >>= f) goal := by
  obtain ⟨x, same, holds⟩ := first
  rw [same]
  exact second x holds

end Returns

/-! ## Arrays and their slices -/

/-- An array of `n` bytes. -/
structure Memory (n : Nat) where
  bytes : Bytes
  size : bytes.length = n

/-- A slice of an array of `n` bytes. -/
structure View (n : Nat) where
  off : Nat
  len : Nat
  cap : Nat
  len_le : len ≤ cap
  inside : off + cap ≤ n

variable {n : Nat}

/-- Data is copied to the front of the array, as much of it as there is room for. -/
def Memory.receive (mem : Memory n) (data : Bytes) : Memory n :=
  ⟨copyAt mem.bytes 0 data, by rw [length_copyAt, mem.size]⟩

namespace View

/-- The nil slice. -/
def nil : View n := ⟨0, 0, 0, Nat.le_refl 0, Nat.zero_le n⟩

/-- All of the array. -/
def whole : View n := ⟨0, n, n, Nat.le_refl n, Nat.le_of_eq (Nat.zero_add n)⟩

/-- What the slice holds. -/
def bytes (mem : Memory n) (v : View n) : Bytes := slice mem.bytes v.off (v.off + v.len)

/-- `v[i]`. -/
def index (mem : Memory n) (v : View n) (i : Nat) : Option UInt8 :=
  if i < v.len then mem.bytes[v.off + i]? else none

theorem sub_inside {v : View n} {lo hi : Nat} (h : lo ≤ hi ∧ hi ≤ v.cap) :
    hi - lo ≤ v.cap - lo ∧ v.off + lo + (v.cap - lo) ≤ n := by
  have := v.inside
  omega

/-- `v[lo:hi]`, which may go beyond the length. -/
def sub (v : View n) (lo hi : Nat) : Option (View n) :=
  if h : lo ≤ hi ∧ hi ≤ v.cap then
    some ⟨v.off + lo, hi - lo, v.cap - lo, (sub_inside h).1, (sub_inside h).2⟩
  else none

/-- `v[:hi]`. -/
def take (v : View n) (hi : Nat) : Option (View n) := v.sub 0 hi

/-- `v[lo:]`. -/
def drop (v : View n) (lo : Nat) : Option (View n) := v.sub lo v.len

/-- The big-endian number in the first two bytes. -/
def uint16 (mem : Memory n) (v : View n) : Option UInt16 := do
  let lo ← v.index mem 1
  let hi ← v.index mem 0
  some (Pixiecore.uint16 [hi, lo])

section Rules

variable (mem : Memory n) (v : View n)

@[simp] theorem length_bytes : (v.bytes mem).length = v.len := by
  have len := v.len_le
  have inside := v.inside
  rw [bytes, length_slice _ _ _ (by rw [mem.size]; omega)]
  omega

@[simp] theorem bytes_nil : (nil : View n).bytes mem = [] :=
  List.length_eq_zero_iff.mp (length_bytes mem nil)

@[simp] theorem bytes_whole : (whole : View n).bytes mem = mem.bytes := by
  simp only [bytes, whole, slice, List.drop_zero, Nat.zero_add, Nat.sub_zero]
  exact List.take_of_length_le (Nat.le_of_eq mem.size)

theorem index_returns {i : Nat} (h : i < v.len) :
    Returns (v.index mem i) (fun x => x = (v.bytes mem).getD i 0) := by
  have len := v.len_le
  have inside := v.inside
  have below : v.off + i < mem.bytes.length := by
    rw [mem.size]
    omega
  refine ⟨mem.bytes[v.off + i], ?_, ?_⟩
  · rw [index, if_pos h, List.getElem?_eq_getElem below]
  · rw [List.getD_eq_getElem?_getD, bytes, getElem?_slice, if_pos (by omega),
      List.getElem?_eq_getElem below]
    rfl

theorem uint16_returns (h : 2 ≤ v.len) :
    Returns (v.uint16 mem) (fun x => x = Pixiecore.uint16 (v.bytes mem)) := by
  apply (index_returns mem v (by omega)).bind
  intro lo isLo
  apply (index_returns mem v (by omega)).bind
  intro hi isHi
  apply returns_some
  have length := length_bytes mem v
  rcases read : v.bytes mem with _ | ⟨x, _ | ⟨y, rest⟩⟩
  · rw [read, List.length_nil] at length
    omega
  · rw [read, List.length_singleton] at length
    omega
  · rw [read] at isLo isHi
    rw [isLo, isHi]
    rfl

/-- Within the length, reslicing is slicing the bytes. -/
theorem sub_returns {lo hi : Nat} (h : lo ≤ hi) (h' : hi ≤ v.len) :
    Returns (v.sub lo hi) (fun v' => v'.bytes mem = slice (v.bytes mem) lo hi) := by
  have len := v.len_le
  refine ⟨_, dif_pos ⟨h, by omega⟩, ?_⟩
  apply List.ext_getElem?
  intro i
  simp only [bytes, getElem?_slice]
  by_cases below : i < hi - lo
  · rw [if_pos (by omega), if_pos below, if_pos (by omega), Nat.add_assoc]
  · rw [if_neg (by omega), if_neg below]

theorem take_returns {hi : Nat} (h : hi ≤ v.len) :
    Returns (v.take hi) (fun v' => v'.bytes mem = (v.bytes mem).take hi) :=
  sub_returns mem v (Nat.zero_le hi) h

theorem drop_returns {lo : Nat} (h : lo ≤ v.len) :
    Returns (v.drop lo) (fun v' => v'.bytes mem = (v.bytes mem).drop lo) := by
  apply (sub_returns mem v h (Nat.le_refl _)).mono
  intro v' same
  rw [same, slice, List.take_of_length_le]
  rw [List.length_drop, length_bytes]

/-- Reading the number in two bytes of a slice, and what comes after it. -/
theorem uint16_sub_bind {β : Type} {lo : Nat} {f : UInt16 → Option β} {goal : β → Prop}
    (h : lo + 2 ≤ v.len)
    (next : Returns (f (Pixiecore.uint16 (slice (v.bytes mem) lo (lo + 2)))) goal) :
    Returns (v.sub lo (lo + 2) >>= fun part => part.uint16 mem >>= f) goal := by
  apply (sub_returns mem v (Nat.le_add_right lo 2) h).bind
  intro part isPart
  have two : part.len = 2 := by
    rw [← length_bytes mem part, isPart, length_slice _ _ _ (by rw [length_bytes]; exact h)]
    omega
  apply (uint16_returns mem part (Nat.le_of_eq two.symm)).bind
  intro x isX
  rw [isX, isPart]
  exact next

theorem len_of_drop {v v' : View n} {lo : Nat} (h : v.drop lo = some v') :
    v'.len = v.len - lo ∧ lo ≤ v.len := by
  rw [drop, sub] at h
  split at h
  · next fits =>
    cases h
    exact ⟨rfl, fits.1⟩
  · cases h

end Rules

/-- The front of the array after data was received is that data, whatever was there before. -/
theorem take_receive_returns (mem : Memory n) (data : Bytes) :
    Returns ((whole : View n).take (min data.length n))
      (fun v => v.bytes (mem.receive data) = data.take n) := by
  apply (take_returns (mem.receive data) whole (Nat.min_le_right data.length n)).mono
  intro v same
  have read := readFrom_snd mem.bytes data
  rw [mem.size] at read
  rw [same, bytes_whole]
  simp only [readFrom, mem.size] at read
  exact read

end View

/-! ## Receiving into one array -/

section Rounds

variable {ι κ α : Type}

/-- Rounds that share an array: what each of them yields. -/
def rounds (round : ι → Memory n → Option (Memory n × α)) (mem : Memory n) :
    List ι → Option (List α)
  | [] => some []
  | i :: is =>
    match round i mem with
    | none => none
    | some (mem', a) => (rounds round mem' is).map (fun as => a :: as)

/-- Every round yields a function of what it sees of its own input, whatever the rounds before
it have left in the array. -/
structure OwnInputOnly (round : ι → Memory n → Option (Memory n × α)) (sees : ι → κ) (f : κ → α) :
    Prop where
  runs : ∀ mem is, rounds round mem is = some (is.map (fun i => f (sees i)))
  twoRuns : ∀ (mem mem' : Memory n) (is is' : List ι) (k : Nat),
    is[k]?.map sees = is'[k]?.map sees →
    (rounds round mem is).map (fun as => as[k]?) = (rounds round mem' is').map (fun as => as[k]?)

variable {round : ι → Memory n → Option (Memory n × α)} {sees : ι → κ} {f : κ → α}

theorem rounds_eq (each : ∀ i mem, Returns (round i mem) (fun r => r.2 = f (sees i)))
    (mem : Memory n) (is : List ι) :
    rounds round mem is = some (is.map (fun i => f (sees i))) := by
  induction is generalizing mem with
  | nil => rfl
  | cons i is ih =>
    obtain ⟨⟨mem', a⟩, same, own⟩ := each i mem
    rw [rounds, same]
    simp only [ih mem', Option.map_some, List.map_cons]
    rw [← own]

/-- It is enough that a round does what a function of the array's bytes does, and that what this
function yields does not depend on them. -/
theorem ownInputOnly (model : ι → Bytes → Bytes × α)
    (refines : ∀ i mem, Returns (round i mem) (fun r => (r.1.bytes, r.2) = model i mem.bytes))
    (own : ∀ i {buf : Bytes}, buf.length = n → (model i buf).2 = f (sees i)) :
    OwnInputOnly round sees f := by
  have each : ∀ i mem, Returns (round i mem) (fun r => r.2 = f (sees i)) := by
    intro i mem
    apply (refines i mem).mono
    intro r did
    exact (congrArg Prod.snd did).trans (own i mem.size)
  have yields : ∀ (is : List ι) (k : Nat),
      (is.map (fun i => f (sees i)))[k]? = (is[k]?.map sees).map f := by
    intro is k
    rw [List.getElem?_map, Option.map_map]
    rfl
  refine ⟨rounds_eq each, ?_⟩
  intro mem mem' is is' k same
  rw [rounds_eq each, rounds_eq each, Option.map_some, Option.map_some, yields, yields, same]

end Rounds

end Pixiecore
