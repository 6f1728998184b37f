import Pixiecore.Misc.Decimal

/-!
# Network addresses

The parts of Go's `net` package the servers use: IPv4 addresses in their
four-byte form and how they print, the tests that tell unicast scopes apart,
and hardware addresses, which `ParseMAC` reads in colon, hyphen or dot notation
and `HardwareAddr.String` prints in lower-case hexadecimal with colons.
-/

namespace Pixiecore

/-! ## IPv4 -/

/-- An IPv4 address in the four-byte form `To4` returns. -/
structure IPv4 where
  a : UInt8
  b : UInt8
  c : UInt8
  d : UInt8
  deriving DecidableEq, Repr

namespace IPv4

/-- The four bytes, in network order. -/
def bytes (ip : IPv4) : Bytes := [ip.a, ip.b, ip.c, ip.d]

@[simp] theorem length_bytes (ip : IPv4) : ip.bytes.length = 4 := rfl

/-- `ip[0] == 127`. -/
def isLoopback (ip : IPv4) : Bool := ip.a == 127

/-- `169.254.0.0/16`. -/
def isLinkLocalUnicast (ip : IPv4) : Bool := ip.a == 169 && ip.b == 254

/-- `224.0.0.0/4`. -/
def isMulticast (ip : IPv4) : Bool := ip.a &&& 0xf0 == 0xe0

/-- Neither broadcast, unspecified, loopback, multicast nor link-local. -/
def isGlobalUnicast (ip : IPv4) : Bool :=
  ip != ⟨255, 255, 255, 255⟩ && ip != ⟨0, 0, 0, 0⟩ && !ip.isLoopback && !ip.isMulticast &&
    !ip.isLinkLocalUnicast

end IPv4

/-- `net.IP.To4`: a four-byte address as it is, a sixteen-byte one only under the
`::ffff:0:0/96` prefix. -/
def to4 : Bytes → Option IPv4
  | [a, b, c, d] => some ⟨a, b, c, d⟩
  | [0, 0, 0, 0, 0, 0, 0, 0, 0, 0, 0xff, 0xff, a, b, c, d] => some ⟨a, b, c, d⟩
  | _ => none

/-- A hexadecimal digit, lower case. -/
def hexDigit (n : Nat) : UInt8 :=
  if n < 10 then UInt8.ofNat (48 + n) else UInt8.ofNat (87 + n)

/-- The two hexadecimal digits of a byte. -/
def hexByte (x : UInt8) : Bytes := [hexDigit (x.toNat / 16), hexDigit (x.toNat % 16)]

/-- `net.IP.String` on a four-byte address; other lengths, which the servers never
print, show as `?` and hexadecimal. -/
def ipString : Bytes → Bytes
  | [a, b, c, d] =>
    decimal a.toNat ++ ascii "." ++ decimal b.toNat ++ ascii "." ++ decimal c.toNat ++
      ascii "." ++ decimal d.toNat
  | other => ascii "?" ++ other.flatMap hexByte

/-- Dotted notation takes at most fifteen characters. -/
theorem length_ipString_bytes_le (ip : IPv4) : (ipString ip.bytes).length ≤ 15 := by
  have three : ∀ x : UInt8, (decimal x.toNat).length ≤ 3 := by
    intro x
    have := x.toNat_lt
    exact length_decimal_le x.toNat 2 (by omega)
  have ha := three ip.a
  have hb := three ip.b
  have hc := three ip.c
  have hd := three ip.d
  have dot : (ascii ".").length = 1 := rfl
  simp only [IPv4.bytes, ipString, List.length_append, dot]
  omega

/-! ## Hardware addresses -/

/-- `net.HardwareAddr.String`. -/
def hardwareAddrString (mac : Bytes) : Bytes :=
  List.intercalate (ascii ":") (mac.map hexByte)

/-- The value of a hexadecimal digit of either case. -/
def hexValue? (c : UInt8) : Option Nat :=
  if 48 ≤ c ∧ c ≤ 57 then some (c.toNat - 48)
  else if 97 ≤ c ∧ c ≤ 102 then some (c.toNat - 87)
  else if 65 ≤ c ∧ c ≤ 70 then some (c.toNat - 55)
  else none

/-- `net.xtoi2`: two hexadecimal digits, and the byte `e` after them if there is a third. -/
def xtoi2 (s : Bytes) (e : UInt8) : Option UInt8 :=
  match s with
  | hi :: lo :: more =>
    if more.head?.any (· ≠ e) then none
    else (hexValue? hi).bind (fun h => (hexValue? lo).map (fun l => UInt8.ofNat (h * 16 + l)))
  | _ => none

/-- The `n` two-digit groups of a colon or hyphen separated address. -/
def parseMACPairs (sep : UInt8) : Nat → Bytes → Option Bytes
  | 0, _ => some []
  | n + 1, s =>
    (xtoi2 s sep).bind (fun x => (parseMACPairs sep n (s.drop 3)).map (fun xs => x :: xs))

/-- The `n` four-digit groups of a dot separated address. -/
def parseMACQuads (sep : UInt8) : Nat → Bytes → Option Bytes
  | 0, _ => some []
  | n + 1, s =>
    (xtoi2 (s.take 2) 0).bind (fun x => (xtoi2 (s.drop 2) sep).bind (fun y =>
      (parseMACQuads sep n (s.drop 5)).map (fun xs => x :: y :: xs)))

/-- A 6, 8 or 20 octet address. -/
def macLength (n : Nat) : Bool := n == 6 || n == 8 || n == 20

/-- `net.ParseMAC`. -/
def parseMAC (s : Bytes) : Option Bytes :=
  if s.length < 14 then none
  else if s.getD 2 0 = 58 ∨ s.getD 2 0 = 45 then
    if (s.length + 1) % 3 ≠ 0 ∨ !macLength ((s.length + 1) / 3) then none
    else parseMACPairs (s.getD 2 0) ((s.length + 1) / 3) s
  else if s.getD 4 0 = 46 then
    if (s.length + 1) % 5 ≠ 0 ∨ !macLength (2 * (s.length + 1) / 5) then none
    else parseMACQuads 46 ((s.length + 1) / 5) s
  else none

example : parseMAC (ascii "00-1F-5b-AA-00-ff") = some [0, 0x1f, 0x5b, 0xaa, 0, 0xff] := by
  decide

/-! ### What `ParseMAC` makes of a hyphen separated address -/

/-- A byte of a text, with capital letters made small. -/
def lowerCase (c : UInt8) : UInt8 := if 65 ≤ c ∧ c ≤ 90 then c + 32 else c

/-- The address in two-digit groups with hyphens between them, in small letters. -/
def dashed (mac : Bytes) : Bytes := List.intercalate [45] (mac.map hexByte)

theorem toNat_hexDigit {n : Nat} (h : n < 16) :
    (hexDigit n).toNat = if n < 10 then 48 + n else 87 + n := by
  rw [hexDigit]
  split
  · rw [UInt8.toNat_ofNat']
    omega
  · rw [UInt8.toNat_ofNat']
    omega

theorem eq_of_lowerCase_eq {c d : UInt8} (h : d < 97) (same : lowerCase c = d) : c = d := by
  rw [lowerCase] at same
  split at same
  · next capital =>
    obtain ⟨lo, hi⟩ := capital
    rw [UInt8.le_iff_toNat_le] at lo hi
    rw [← same, UInt8.lt_iff_toNat_lt, UInt8.toNat_add] at h
    simp only [UInt8.reduceToNat] at lo hi h
    omega
  · exact same

/-- A hexadecimal digit of either case has the value of the small one. -/
theorem hexValue?_of_lowerCase {c : UInt8} {n : Nat} (h : n < 16)
    (same : lowerCase c = hexDigit n) : hexValue? c = some n := by
  have value := congrArg UInt8.toNat same
  rw [toNat_hexDigit h, lowerCase] at value
  have sum : 65 ≤ c.toNat → c.toNat ≤ 90 → (c + 32).toNat = c.toNat + 32 := by
    intro lo hi
    rw [UInt8.toNat_add]
    simp only [UInt8.reduceToNat]
    omega
  simp only [hexValue?, UInt8.le_iff_toNat_le, UInt8.reduceToNat] at value ⊢
  split at value
  · next capital =>
    rw [sum capital.1 capital.2] at value
    split at value
    · omega
    · rw [if_neg (by omega), if_neg (by omega), if_pos (by omega)]
      congr 1
      omega
  · split at value
    · rw [if_pos (by omega)]
      congr 1
      omega
    · rw [if_neg (by omega), if_pos (by omega)]
      congr 1
      omega

theorem map_eq_hexByte {name rest : Bytes} {x : UInt8}
    (same : name.map lowerCase = hexByte x ++ rest) :
    ∃ hi lo name', name = hi :: lo :: name' ∧ name'.map lowerCase = rest ∧
      hexValue? hi = some (x.toNat / 16) ∧ hexValue? lo = some (x.toNat % 16) := by
  have byte := x.toNat_lt
  simp only [hexByte, List.cons_append, List.nil_append] at same
  obtain ⟨hi, name₁, rfl, high, same⟩ := List.map_eq_cons_iff.mp same
  obtain ⟨lo, name', rfl, low, same⟩ := List.map_eq_cons_iff.mp same
  exact ⟨hi, lo, name', rfl, same, hexValue?_of_lowerCase (by omega) high,
    hexValue?_of_lowerCase (by omega) low⟩

theorem dashed_cons_cons (x y : UInt8) (mac : Bytes) :
    dashed (x :: y :: mac) = hexByte x ++ 45 :: dashed (y :: mac) := rfl

/-- The groups are read one after the other, in either case. -/
theorem parseMACPairs_dashed (mac name : Bytes) (same : name.map lowerCase = dashed mac) :
    parseMACPairs 45 mac.length name = some mac := by
  have whole : ∀ x : UInt8, UInt8.ofNat (x.toNat / 16 * 16 + x.toNat % 16) = x := by
    intro x
    rw [Nat.div_add_mod', UInt8.ofNat_toNat]
  induction mac generalizing name with
  | nil => rfl
  | cons x mac ih =>
    cases mac with
    | nil =>
      have alone : name.map lowerCase = hexByte x ++ [] := same
      obtain ⟨hi, lo, name', rfl, nothing, high, low⟩ := map_eq_hexByte alone
      rw [List.map_eq_nil_iff.mp nothing]
      simp only [List.length_cons, List.length_nil, parseMACPairs, xtoi2, List.head?_nil,
        Option.any_none, Bool.false_eq_true, if_false, high, low, Option.bind_some,
        Option.map_some, whole]
    | cons y mac =>
      rw [dashed_cons_cons] at same
      obtain ⟨hi, lo, name', rfl, more, high, low⟩ := map_eq_hexByte same
      obtain ⟨sep, name'', rfl, hyphen, more⟩ := List.map_eq_cons_iff.mp more
      rw [eq_of_lowerCase_eq (by decide) hyphen]
      have rest := ih name'' more
      rw [List.length_cons, parseMACPairs]
      simp only [xtoi2, List.head?_cons, Option.any_some, ne_eq, not_true_eq_false, decide_false,
        Bool.false_eq_true, if_false, high, low, Option.bind_some, Option.map_some, whole,
        List.drop_succ_cons, List.drop_zero, rest]

theorem length_dashed (x : UInt8) (mac : Bytes) :
    (dashed (x :: mac)).length = 3 * mac.length + 2 := by
  induction mac generalizing x with
  | nil => rfl
  | cons y mac ih =>
    rw [dashed_cons_cons, List.length_append, List.length_cons, ih y]
    simp only [hexByte, List.length_cons, List.length_nil]
    omega

theorem mem_dashed {c : UInt8} (mac : Bytes) (member : c ∈ dashed mac) :
    c = 45 ∨ ∃ n < 16, c = hexDigit n := by
  have digits : ∀ x : UInt8, c ∈ hexByte x → ∃ n < 16, c = hexDigit n := by
    intro x inByte
    have byte := x.toNat_lt
    rcases List.mem_cons.mp inByte with high | low
    · exact ⟨x.toNat / 16, by omega, high⟩
    · exact ⟨x.toNat % 16, by omega, List.mem_singleton.mp low⟩
  induction mac with
  | nil => cases member
  | cons x mac ih =>
    cases mac with
    | nil => exact .inr (digits x member)
    | cons y mac =>
      rw [dashed_cons_cons] at member
      rcases List.mem_append.mp member with first | more
      · exact .inr (digits x first)
      · rcases List.mem_cons.mp more with hyphen | rest
        · exact .inl hyphen
        · exact ih rest

/-- A six-byte address that is written with hyphens, in letters of either case, is read back. -/
theorem parseMAC_dashed {mac name : Bytes} (size : mac.length = 6)
    (same : name.map lowerCase = dashed mac) : parseMAC name = some mac := by
  have pairs := parseMACPairs_dashed mac name same
  match mac, size with
  | x :: y :: mac, size =>
    have long : name.length = 17 := by
      have six : (y :: mac).length + 1 = 6 := size
      rw [← List.length_map lowerCase, same, length_dashed]
      omega
    rw [dashed_cons_cons] at same
    obtain ⟨hi, lo, name', rfl, more, _, _⟩ := map_eq_hexByte same
    obtain ⟨sep, name'', rfl, hyphen, _⟩ := List.map_eq_cons_iff.mp more
    have third : (hi :: lo :: sep :: name'').getD 2 0 = 45 := eq_of_lowerCase_eq (by decide) hyphen
    rw [size] at pairs
    rw [parseMAC, if_neg (by omega), if_pos (.inr third), long, third]
    exact pairs

/-- There is no slash in a written address. -/
theorem notMem_of_dashed {mac name : Bytes} (same : name.map lowerCase = dashed mac) :
    (47 : UInt8) ∉ name := by
  intro member
  have small : lowerCase 47 = 47 := by decide
  have there : (47 : UInt8) ∈ dashed mac := by
    rw [← same, ← small]
    exact List.mem_map_of_mem member
  rcases mem_dashed mac there with hyphen | ⟨n, below, digit⟩
  · cases hyphen
  · have value := congrArg UInt8.toNat digit
    rw [toNat_hexDigit below] at value
    simp only [UInt8.reduceToNat] at value
    split at value
    · omega
    · omega

end Pixiecore
