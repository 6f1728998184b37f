import Pixiecore.Misc.Fold
import Pixiecore.Misc.Tlv

/-!
# DHCP options

`DhcpOption` of `dhcp/dhcp.go:181-190` and the loop around it, which `ParseDHCP`
and `ParsePXE` both write as

    typ, val, opts := DhcpOption(b)
    for typ != 255 { ...; typ, val, opts = DhcpOption(opts) }

Type 255 is the END option, and is also what `DhcpOption` reports for bytes that
hold no complete option, so the loop ends silently on a truncated packet. All
facts about the loop come from the list `options` of what it visits, which is the
`Tlv.split` of the bytes.
-/

namespace Pixiecore.Dhcp

/-- `DhcpOption`: type, value and rest of the first option. The two slices are nil,
here empty, when the type is 255. -/
def dhcpOption : Bytes → UInt8 × Bytes × Bytes
  | typ :: l :: rest =>
    if typ = 255 then (255, [], [])
    else if rest.length < l.toNat then (255, [], [])
    else (typ, rest.take l.toNat, rest.drop l.toNat)
  | _ => (255, [], [])

theorem dhcpOption_eq (b : Bytes) :
    dhcpOption b =
      match Tlv.next? 255 b with
      | none => (255, [], [])
      | some (o, rest) => (o.typ, o.val, rest) := by
  rcases b with _ | ⟨typ, _ | ⟨l, rest⟩⟩
  · rfl
  · rfl
  · simp only [dhcpOption, Tlv.next?]
    by_cases isEnd : typ = 255
    · simp [isEnd]
    · by_cases short : rest.length < l.toNat
      · have : ¬ l.toNat ≤ rest.length := by omega
        simp [isEnd, short, this]
      · have : l.toNat ≤ rest.length := by omega
        simp [isEnd, short, this]

theorem dhcpOption_shortens {b : Bytes} (h : (dhcpOption b).1 ≠ 255) :
    (dhcpOption b).2.2.length < b.length := by
  rw [dhcpOption_eq] at h ⊢
  split at h
  · exact absurd rfl h
  · rename_i o rest found
    exact Tlv.next?_shortens found

/-- The options that iterating `dhcpOption` visits, and the bytes at which it
returned type 255. -/
def options (b : Bytes) : List (UInt8 × Bytes) × Bytes :=
  if h : (dhcpOption b).1 = 255 then ([], b)
  else
    have := dhcpOption_shortens h
    (((dhcpOption b).1, (dhcpOption b).2.1) :: (options (dhcpOption b).2.2).1,
      (options (dhcpOption b).2.2).2)
termination_by b.length

/-- The option loop of the two parsers, with the `switch` as `body`. -/
def forOptions {ε σ : Type} (body : σ → UInt8 → Bytes → Except ε σ) (st : σ) (b : Bytes) :
    Except ε σ :=
  if h : (dhcpOption b).1 = 255 then .ok st
  else
    have := dhcpOption_shortens h
    match body st (dhcpOption b).1 (dhcpOption b).2.1 with
    | .error e => .error e
    | .ok st => forOptions body st (dhcpOption b).2.2
termination_by b.length

theorem forOptions_eq_foldlM {ε σ : Type} (body : σ → UInt8 → Bytes → Except ε σ) (st : σ)
    (b : Bytes) :
    forOptions body st b = (options b).1.foldlM (fun st o => body st o.1 o.2) st := by
  induction b using options.induct generalizing st with
  | case1 b stop =>
    rw [forOptions, dif_pos stop, options, dif_pos stop]
    rfl
  | case2 b more _ ih =>
    rw [forOptions, dif_neg more, options, dif_neg more, List.foldlM_cons]
    cases body st (dhcpOption b).1 (dhcpOption b).2.1 with
    | error e => rfl
    | ok st' => exact ih st'

/-- The loop reads exactly the items of the type-length-value list. -/
theorem options_eq_split (b : Bytes) :
    options b = ((Tlv.split 255 b).1.map Tlv.pair, (Tlv.split 255 b).2) := by
  induction b using Tlv.split.induct 255 with
  | case1 b stuck =>
    have stop : (dhcpOption b).1 = 255 := by rw [dhcpOption_eq, stuck]
    rw [options, dif_pos stop, Tlv.split_stuck stuck]
    rfl
  | case2 b o rest found _ ih =>
    have read : dhcpOption b = (o.typ, o.val, rest) := by rw [dhcpOption_eq, found]
    have more : ¬ (dhcpOption b).1 = 255 := by
      rw [read]
      exact o.typ_ne
    rw [options, dif_neg more]
    simp only [read]
    rw [ih, Tlv.split_next found]
    rfl

/-- A written option is the first one visited. -/
theorem options_cons (typ len : UInt8) (val rest : Bytes) (htyp : typ ≠ 255)
    (hlen : val.length = len.toNat) :
    options (typ :: len :: (val ++ rest)) = ((typ, val) :: (options rest).1, (options rest).2) := by
  have bound := len.toNat_lt
  let o : Tlv 255 := ⟨typ, val, htyp, by omega⟩
  have front : typ :: len :: (val ++ rest) = o.encode ++ rest := by
    simp only [Tlv.encode, o, hlen, UInt8.ofNat_toNat, List.cons_append]
  rw [options_eq_split, options_eq_split, front, Tlv.split_encode_append]
  rfl

theorem options_end (rest : Bytes) : options (255 :: rest) = ([], 255 :: rest) := by
  rw [options_eq_split, Tlv.split_stuck (Tlv.stuck_stop rest)]
  rfl

/-- An option that is cut off ends the loop. -/
theorem options_cut {typ len : UInt8} {rest : Bytes} (short : rest.length < len.toNat) :
    (options (typ :: len :: rest)).1 = [] := by
  have stuck : Tlv.Stuck 255 (typ :: len :: rest) :=
    Tlv.stuck_iff.mpr (.inr (.inr ⟨typ, len, rest, rfl, short⟩))
  rw [options_eq_split, Tlv.split_stuck stuck]
  rfl

section Loop

variable {ε σ : Type} {body : σ → UInt8 → Bytes → Except ε σ} {P : UInt8 × Bytes → Prop}
  {f : σ → UInt8 × Bytes → σ}

/-- The loop succeeds exactly when the body accepts every option it visits. -/
theorem forOptions_ok_iff (hbody : ∀ st o st', body st o.1 o.2 = .ok st' ↔ P o ∧ st' = f st o)
    (st st' : σ) (b : Bytes) :
    forOptions body st b = .ok st' ↔
      (∀ o ∈ (options b).1, P o) ∧ st' = (options b).1.foldl f st := by
  rw [forOptions_eq_foldlM]
  exact foldlM_ok_iff (fun st o => body st o.1 o.2) P f hbody (options b).1 st st'

theorem not_all_of_forOptions_error
    (hbody : ∀ st o st', body st o.1 o.2 = .ok st' ↔ P o ∧ st' = f st o) {st : σ} {b : Bytes}
    {e : ε} (ran : forOptions body st b = .error e) : ¬ ∀ o ∈ (options b).1, P o := by
  intro all
  have succeeds := (forOptions_ok_iff hbody st _ b).mpr ⟨all, rfl⟩
  rw [ran] at succeeds
  cases succeeds

/-- The loop does the same when it visits the same options. -/
theorem forOptions_congr {b b' : Bytes} (same : (options b).1 = (options b').1) (st : σ) :
    forOptions body st b = forOptions body st b' := by
  rw [forOptions_eq_foldlM, forOptions_eq_foldlM, same]

end Loop

/-- The bytes that the loop has read are options. -/
theorem exists_encodeAll (b : Bytes) :
    ∃ os : List (Tlv 255), b = Tlv.encodeAll os ++ (options b).2 ∧
      (options b).1 = os.map Tlv.pair := by
  refine ⟨(Tlv.split 255 b).1, ?_, ?_⟩
  · rw [options_eq_split]
    exact (Tlv.split_spec b).1.symm
  · rw [options_eq_split]

/-- A value is no longer than its length byte can say. -/
theorem length_le_of_mem_options {b : Bytes} {o : UInt8 × Bytes} (member : o ∈ (options b).1) :
    o.2.length ≤ 255 := by
  obtain ⟨os, _, list⟩ := exists_encodeAll b
  rw [list] at member
  obtain ⟨t, _, rfl⟩ := List.mem_map.mp member
  exact t.len_le

theorem length_options_snd_le (b : Bytes) : (options b).2.length ≤ b.length := by
  obtain ⟨os, whole, _⟩ := exists_encodeAll b
  have lengths := congrArg List.length whole
  rw [List.length_append] at lengths
  omega

/-- Nothing after the END option is looked at. -/
theorem options_after_end {front rest : Bytes}
    (ends : (options (front ++ 255 :: rest)).2 = 255 :: rest) (rest' : Bytes) :
    (options (front ++ 255 :: rest')).1 = (options (front ++ 255 :: rest)).1 := by
  obtain ⟨os, whole, list⟩ := exists_encodeAll (front ++ 255 :: rest)
  rw [ends] at whole
  rw [list, List.append_cancel_right whole, options_eq_split,
    Tlv.split_encodeAll os (Tlv.stuck_stop rest')]

/-- Bytes that hold no complete option: not even a type and a length, the END option, or an
option that is cut off. -/
def Unreadable (tail : Bytes) : Prop :=
  tail.length < 2 ∨ tail.head? = some 255 ∨
    ∃ typ len rest, tail = typ :: len :: rest ∧ rest.length < len.toNat

/-- Every byte string is a list of options followed by something unreadable, in exactly one way,
and this is what the loop finds. So it reads back whatever list was written before an END. -/
theorem options_inverts_encoding (b : Bytes) :
    (∃! parts : List (Tlv 255) × Bytes,
      b = Tlv.encodeAll parts.1 ++ parts.2 ∧ Unreadable parts.2) ∧
    (∀ (opts : List (Tlv 255)) (tail : Bytes), b = Tlv.encodeAll opts ++ tail → Unreadable tail →
      options b = (opts.map Tlv.pair, tail)) ∧
    ∀ (opts : List (Tlv 255)) (trailing : Bytes),
      (options (Tlv.encodeAll opts ++ [255] ++ trailing)).1 = opts.map Tlv.pair := by
  have parts : ∀ opts tail, b = Tlv.encodeAll opts ++ tail → Unreadable tail →
      Tlv.split 255 b = (opts, tail) := by
    intro opts tail whole unreadable
    exact Tlv.decomposition_unique whole (Tlv.stuck_iff.mpr unreadable)
  refine ⟨?_, ?_, ?_⟩
  · obtain ⟨whole, stuck⟩ := Tlv.split_spec b
    refine ⟨Tlv.split 255 b, ⟨whole.symm, Tlv.stuck_iff.mp stuck⟩, ?_⟩
    intro other ⟨whole', unreadable⟩
    exact (parts other.1 other.2 whole' unreadable).symm
  · intro opts tail whole unreadable
    rw [options_eq_split, parts opts tail whole unreadable]
  · intro opts trailing
    rw [List.append_assoc, List.singleton_append, options_eq_split,
      Tlv.split_encodeAll opts (Tlv.stuck_stop trailing)]

/-- A message type, and something after END. -/
theorem options_inverts_encoding_messageType :
    options [53, 1, 1, 255, 9] = ([(53, [1])], [255, 9]) :=
  (options_inverts_encoding [53, 1, 1, 255, 9]).2.1 [⟨53, [1], by decide, by decide⟩] [255, 9] rfl
    (.inr (.inl rfl))

/-- The value of an option of the given type. -/
def valueOf (typ : UInt8) (o : UInt8 × Bytes) : Option Bytes :=
  if o.1 = typ then some o.2 else none

/-- The option is the last one of its type. -/
def IsLast (typ : UInt8) (opts : List (UInt8 × Bytes)) (val : Bytes) : Prop :=
  ∃ front back, opts = front ++ (typ, val) :: back ∧ ∀ o ∈ back, o.1 ≠ typ

theorem valueOf_eq_some_iff {typ : UInt8} {o : UInt8 × Bytes} {val : Bytes} :
    valueOf typ o = some val ↔ o = (typ, val) := by
  rw [valueOf, Option.ite_none_right_eq_some, Option.some.injEq]
  exact ⟨fun h => Prod.ext h.1 h.2, fun h => ⟨congrArg Prod.fst h, congrArg Prod.snd h⟩⟩

theorem valueOf_eq_none_iff {typ : UInt8} {o : UInt8 × Bytes} :
    valueOf typ o = none ↔ o.1 ≠ typ := by
  rw [valueOf, ite_eq_right_iff]
  constructor
  · intro h is
    cases h is
  · intro other is
    exact absurd is other

/-- The value of the last option of a type. -/
def lastOption (typ : UInt8) (opts : List (UInt8 × Bytes)) : Option Bytes :=
  lastSome (valueOf typ) opts

theorem lastOption_mem {typ : UInt8} {opts : List (UInt8 × Bytes)} {val : Bytes}
    (h : lastOption typ opts = some val) : (typ, val) ∈ opts := by
  obtain ⟨o, member, found⟩ := lastSome_mem h
  rwa [valueOf_eq_some_iff.mp found] at member

theorem lastOption_eq_some_iff {typ : UInt8} {opts : List (UInt8 × Bytes)} {val : Bytes} :
    lastOption typ opts = some val ↔ IsLast typ opts val := by
  rw [lastOption, lastSome_eq_some_iff]
  constructor
  · intro ⟨front, o, back, split, found, silent⟩
    rw [valueOf_eq_some_iff.mp found] at split
    exact ⟨front, back, split, fun y member => valueOf_eq_none_iff.mp (silent y member)⟩
  · intro ⟨front, back, split, others⟩
    exact ⟨front, (typ, val), back, split, valueOf_eq_some_iff.mpr rfl,
      fun y member => valueOf_eq_none_iff.mpr (others y member)⟩

theorem lastOption_ne_none_iff {typ : UInt8} {opts : List (UInt8 × Bytes)} :
    lastOption typ opts ≠ none ↔ ∃ val, (typ, val) ∈ opts := by
  constructor
  · intro present
    obtain ⟨val, found⟩ := Option.ne_none_iff_exists'.mp present
    exact ⟨val, lastOption_mem found⟩
  · intro ⟨val, member⟩ absent
    have silent := lastSome_eq_none.mp absent
    have found := silent _ member
    rw [valueOf_eq_some_iff.mpr rfl] at found
    cases found

end Pixiecore.Dhcp
