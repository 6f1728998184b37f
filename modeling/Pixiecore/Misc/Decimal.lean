import Mathlib.Algebra.Group.Int.Defs
import Mathlib.Algebra.Group.Nat.Defs
import Pixiecore.Misc.Bytes

/-!
# Decimal numbers

`strconv.Itoa` and `strconv.Atoi` (and `fmt`'s `%d`, which prints what `Itoa`
prints), for a 64-bit `int`. `atoi` accepts an optional sign and one or more
digits, any number of leading zeros included, and refuses a value outside the
64-bit range; it has no notion of white space or of digit separators.
-/

namespace Pixiecore

/-- The character of a digit below ten. -/
def digit (d : Nat) : UInt8 := UInt8.ofNat (48 + d)

/-- A byte between `'0'` and `'9'`. -/
def isDigit (c : UInt8) : Bool := 48 ≤ c && c ≤ 57

/-- The decimal digits of a natural number, most significant first. -/
def decimal (n : Nat) : Bytes :=
  if n < 10 then [digit n] else decimal (n / 10) ++ [digit (n % 10)]
termination_by n

/-- `strconv.Itoa`. -/
def itoa : Int → Bytes
  | .ofNat n => decimal n
  | .negSucc n => 45 :: decimal (n + 1)

/-- The positional value of a digit string. -/
def digitsValue (ds : Bytes) : Nat :=
  ds.foldl (fun n c => 10 * n + (c.toNat - 48)) 0

/-- A non-empty run of digits as a number. -/
def digits? (ds : Bytes) : Option Nat :=
  if ds ≠ [] ∧ ds.all isDigit then some (digitsValue ds) else none

/-- `strconv.Atoi` on a machine with 64-bit `int`. -/
def atoi : Bytes → Option Int
  | [] => none
  | c :: ds =>
    if c = 45 then
      (digits? ds).bind (fun n => if n ≤ 2 ^ 63 then some (-(n : Int)) else none)
    else
      (digits? (if c = 43 then ds else c :: ds)).bind
        (fun n => if n < 2 ^ 63 then some (n : Int) else none)

theorem toNat_digit {d : Nat} (h : d < 10) : (digit d).toNat = 48 + d := by
  simp only [digit, UInt8.toNat_ofNat']
  omega

theorem isDigit_digit {d : Nat} (h : d < 10) : isDigit (digit d) = true := by
  have value := toNat_digit h
  simp only [isDigit, Bool.and_eq_true, decide_eq_true_eq, UInt8.le_iff_toNat_le, value]
  exact ⟨by simp, by simp; omega⟩

theorem decimal_ne_nil (n : Nat) : decimal n ≠ [] := by
  rw [decimal]
  split <;> simp

theorem decimal_isDigit (n : Nat) : (decimal n).all isDigit = true := by
  induction n using decimal.induct with
  | case1 n small =>
    rw [decimal, if_pos small]
    simp [isDigit_digit small]
  | case2 n large ih =>
    rw [decimal, if_neg large, List.all_append, ih]
    simp [isDigit_digit (Nat.mod_lt n (by omega : 0 < 10))]

theorem digitsValue_decimal (n : Nat) : digitsValue (decimal n) = n := by
  induction n using decimal.induct with
  | case1 n small =>
    rw [decimal, if_pos small]
    simp only [digitsValue, List.foldl_cons, List.foldl_nil, toNat_digit small]
    omega
  | case2 n large ih =>
    have last : n % 10 < 10 := Nat.mod_lt n (by omega)
    rw [decimal, if_neg large]
    simp only [digitsValue] at ih
    simp only [digitsValue, List.foldl_append, List.foldl_cons, List.foldl_nil, ih,
      toNat_digit last]
    omega

theorem digits?_decimal (n : Nat) : digits? (decimal n) = some n := by
  rw [digits?, if_pos ⟨decimal_ne_nil n, decimal_isDigit n⟩, digitsValue_decimal]

/-- A printed natural number starts with a digit, so with neither sign. -/
theorem decimal_head {n : Nat} {c : UInt8} {ds : Bytes} (h : decimal n = c :: ds) :
    c ≠ 45 ∧ c ≠ 43 := by
  have digits := decimal_isDigit n
  rw [h, List.all_cons, Bool.and_eq_true] at digits
  constructor
  · rintro rfl
    exact absurd digits.1 (by decide)
  · rintro rfl
    exact absurd digits.1 (by decide)

/-- `Atoi` undoes `Itoa` on the whole range of a 64-bit `int`. -/
theorem atoi_itoa (i : Int) (lo : -2 ^ 63 ≤ i) (hi : i < 2 ^ 63) : atoi (itoa i) = some i := by
  cases i with
  | ofNat n =>
    have below : n < 2 ^ 63 := by
      have : (n : Int) < 2 ^ 63 := hi
      omega
    have back := digits?_decimal n
    rw [itoa]
    cases printed : decimal n with
    | nil => exact absurd printed (decimal_ne_nil n)
    | cons c ds =>
      obtain ⟨noMinus, noPlus⟩ := decimal_head printed
      rw [printed] at back
      rw [atoi, if_neg noMinus, if_neg noPlus, back]
      simp only [Option.bind_some, below, if_true]
      rfl
  | negSucc n =>
    have below : n + 1 ≤ 2 ^ 63 := by
      have : (-2 ^ 63 : Int) ≤ Int.negSucc n := lo
      omega
    rw [itoa, atoi, if_pos rfl, digits?_decimal]
    simp only [Option.bind_some, below, if_true]
    rfl

/-- A number below `10 ^ k` prints in at most `k` digits. -/
theorem length_decimal_le (n k : Nat) (h : n < 10 ^ (k + 1)) : (decimal n).length ≤ k + 1 := by
  induction k generalizing n with
  | zero =>
    rw [decimal, if_pos (by omega)]
    simp
  | succ k ih =>
    rw [decimal]
    split
    · simp
    · have shorter : n / 10 < 10 ^ (k + 1) := by
        rw [Nat.div_lt_iff_lt_mul (by omega), ← Nat.pow_succ]
        exact h
      simpa using ih (n / 10) shorter

/-- A 64-bit number prints in at most twenty characters. -/
theorem length_itoa_le (i : Int) (lo : -2 ^ 63 ≤ i) (hi : i < 2 ^ 63) :
    (itoa i).length ≤ 20 := by
  cases i with
  | ofNat n =>
    have below : (n : Int) < 2 ^ 63 := hi
    have := length_decimal_le n 18 (by omega)
    rw [itoa]
    omega
  | negSucc n =>
    have above : (-2 ^ 63 : Int) ≤ Int.negSucc n := lo
    have := length_decimal_le (n + 1) 18 (by omega)
    rw [itoa, List.length_cons]
    omega

/-- Printed numbers contain no NUL, so they can be sent as terminated strings. -/
theorem zero_notMem_itoa (i : Int) : (0 : UInt8) ∉ itoa i := by
  have noNul : ∀ n, (0 : UInt8) ∉ decimal n := by
    intro n member
    have digits := List.all_eq_true.mp (decimal_isDigit n) 0 member
    exact absurd digits (by decide)
  cases i with
  | ofNat n => exact noNul n
  | negSucc n =>
    rw [itoa, List.mem_cons, not_or]
    exact ⟨by decide, noNul (n + 1)⟩

/-! ## What `atoi` accepts -/

/-- An optional sign and one or more digits, with the number they write. -/
inductive Denotes : Bytes → Int → Prop
  | plain (ds : Bytes) (nonempty : ds ≠ []) (digits : ∀ c ∈ ds, isDigit c = true) :
      Denotes ds (digitsValue ds)
  | plus (ds : Bytes) (nonempty : ds ≠ []) (digits : ∀ c ∈ ds, isDigit c = true) :
      Denotes (43 :: ds) (digitsValue ds)
  | minus (ds : Bytes) (nonempty : ds ≠ []) (digits : ∀ c ∈ ds, isDigit c = true) :
      Denotes (45 :: ds) (-(digitsValue ds : Int))

theorem digits?_eq_some_iff {ds : Bytes} {n : Nat} :
    digits? ds = some n ↔ ds ≠ [] ∧ (∀ c ∈ ds, isDigit c = true) ∧ digitsValue ds = n := by
  rw [digits?, ← List.all_eq_true, ← and_assoc]
  split
  · next h => rw [Option.some.injEq, and_iff_right h]
  · next h => simp only [h, false_and, reduceCtorEq]

theorem unsigned_eq_some_iff {ds : Bytes} {i : Int} :
    (digits? ds).bind (fun n => if n < 2 ^ 63 then some (n : Int) else none) = some i ↔
      (ds ≠ [] ∧ ∀ c ∈ ds, isDigit c = true) ∧ i = digitsValue ds ∧ i < 2 ^ 63 := by
  rw [Option.bind_eq_some_iff]
  constructor
  · intro ⟨n, value, ranged⟩
    obtain ⟨nonempty, digits, rfl⟩ := digits?_eq_some_iff.mp value
    rw [Option.ite_none_right_eq_some] at ranged
    obtain ⟨below, same⟩ := ranged
    cases same
    exact ⟨⟨nonempty, digits⟩, rfl, by omega⟩
  · intro ⟨⟨nonempty, digits⟩, same, below⟩
    subst same
    refine ⟨digitsValue ds, digits?_eq_some_iff.mpr ⟨nonempty, digits, rfl⟩, ?_⟩
    rw [if_pos (by omega)]

theorem negated_eq_some_iff {ds : Bytes} {i : Int} :
    (digits? ds).bind (fun n => if n ≤ 2 ^ 63 then some (-(n : Int)) else none) = some i ↔
      (ds ≠ [] ∧ ∀ c ∈ ds, isDigit c = true) ∧ i = -(digitsValue ds : Int) ∧ -2 ^ 63 ≤ i := by
  rw [Option.bind_eq_some_iff]
  constructor
  · intro ⟨n, value, ranged⟩
    obtain ⟨nonempty, digits, rfl⟩ := digits?_eq_some_iff.mp value
    rw [Option.ite_none_right_eq_some] at ranged
    obtain ⟨below, same⟩ := ranged
    cases same
    exact ⟨⟨nonempty, digits⟩, rfl, by omega⟩
  · intro ⟨⟨nonempty, digits⟩, same, below⟩
    subst same
    refine ⟨digitsValue ds, digits?_eq_some_iff.mpr ⟨nonempty, digits, rfl⟩, ?_⟩
    rw [if_pos (by omega)]

/-- A text denotes one number at most: a sign is not a digit. -/
theorem Denotes.unique {s : Bytes} {i j : Int} (first : Denotes s i) (second : Denotes s j) :
    i = j := by
  have plus : ¬ isDigit 43 = true := by decide
  have minus : ¬ isDigit 45 = true := by decide
  cases first with
  | plain _ _ digits =>
    cases second with
    | plain _ _ _ => rfl
    | plus _ _ _ => exact absurd (digits _ List.mem_cons_self) plus
    | minus _ _ _ => exact absurd (digits _ List.mem_cons_self) minus
  | plus ds _ _ =>
    cases second with
    | plain _ _ digits => exact absurd (digits _ List.mem_cons_self) plus
    | plus _ _ _ => rfl
  | minus ds _ _ =>
    cases second with
    | plain _ _ digits => exact absurd (digits _ List.mem_cons_self) minus
    | minus _ _ _ => rfl

/-- `Atoi` accepts the decimal integers of the 64-bit range and nothing else. -/
theorem atoi_eq_some_iff (s : Bytes) (i : Int) :
    atoi s = some i ↔ Denotes s i ∧ -2 ^ 63 ≤ i ∧ i < 2 ^ 63 := by
  constructor
  · intro parsed
    cases s with
    | nil => cases parsed
    | cons c ds =>
      rw [atoi] at parsed
      split at parsed
      · next isMinus =>
        obtain ⟨⟨nonempty, digits⟩, rfl, lo⟩ := negated_eq_some_iff.mp parsed
        rw [isMinus]
        exact ⟨.minus ds nonempty digits, lo, by omega⟩
      · split at parsed
        · next isPlus =>
          obtain ⟨⟨nonempty, digits⟩, rfl, hi⟩ := unsigned_eq_some_iff.mp parsed
          rw [isPlus]
          exact ⟨.plus ds nonempty digits, by omega, hi⟩
        · obtain ⟨⟨nonempty, digits⟩, rfl, hi⟩ := unsigned_eq_some_iff.mp parsed
          exact ⟨.plain (c :: ds) nonempty digits, by omega, hi⟩
  · intro ⟨denotes, lo, hi⟩
    cases denotes with
    | plain _ nonempty digits =>
      cases s with
      | nil => exact absurd rfl nonempty
      | cons c ds =>
        have head := digits c List.mem_cons_self
        have noMinus : c ≠ 45 := by
          intro isMinus
          rw [isMinus] at head
          cases head
        have noPlus : c ≠ 43 := by
          intro isPlus
          rw [isPlus] at head
          cases head
        rw [atoi, if_neg noMinus, if_neg noPlus]
        exact unsigned_eq_some_iff.mpr ⟨⟨nonempty, digits⟩, rfl, hi⟩
    | plus ds nonempty digits =>
      exact unsigned_eq_some_iff.mpr ⟨⟨nonempty, digits⟩, rfl, hi⟩
    | minus ds nonempty digits =>
      exact negated_eq_some_iff.mpr ⟨⟨nonempty, digits⟩, rfl, lo⟩

end Pixiecore
