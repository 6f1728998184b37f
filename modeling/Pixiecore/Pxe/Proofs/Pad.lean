import Mathlib.Algebra.Group.Nat.Even
import Mathlib.Data.List.Forall2
import Pixiecore.Dhcp.Proofs.Offer
import Pixiecore.Pxe.Proofs.Reply

/-!
# PAD bytes

`DhcpOption` has no notion of a PAD option, a single byte 0. It takes a byte 0 for the type of
an option and the next byte for its length, so that two bytes 0 are an option of type 0 without
a value, which both parsers ignore, and a byte 0 before any other byte shifts what follows.
-/

namespace Pixiecore.Pxe

open Dhcp

/-! ## Padded options -/

/-- An option as it is sent. -/
def encodeOption (o : UInt8 × Bytes) : Bytes := o.1 :: UInt8.ofNat o.2.length :: o.2

/-- Options as they are sent. -/
def encodeOptions (opts : List (UInt8 × Bytes)) : Bytes := opts.flatMap encodeOption

/-- Options, with so many bytes 0 before each of them and after the last. -/
def padded (opts : List (Nat × UInt8 × Bytes)) (last : Nat) : Bytes :=
  opts.flatMap (fun o => List.replicate o.1 0 ++ encodeOption o.2) ++ List.replicate last 0

/-- An option that is neither PAD nor END, and whose length fits its byte. -/
structure Plain (o : UInt8 × Bytes) : Prop where
  notPad : o.1 ≠ 0
  notEnd : o.1 ≠ 255
  fits : o.2.length ≤ 255

instance (o : UInt8 × Bytes) : Decidable (Plain o) :=
  decidable_of_iff (o.1 ≠ 0 ∧ o.1 ≠ 255 ∧ o.2.length ≤ 255)
    ⟨fun h => ⟨h.1, h.2.1, h.2.2⟩, fun h => ⟨h.notPad, h.notEnd, h.fits⟩⟩

/-- Bytes 0 come in pairs before every option. -/
def Paired (opts : List (Nat × UInt8 × Bytes)) : Prop := ∀ o ∈ opts, Even o.1

instance (opts : List (Nat × UInt8 × Bytes)) : Decidable (Paired opts) :=
  inferInstanceAs (Decidable (∀ o ∈ opts, Even o.1))

/-- The end of a list of options, or of the value of an option 43: an END option, or just the
end of the bytes. -/
def Ends (tail : Bytes) : Prop := tail = [] ∨ tail = [255]

/-- Any type but PAD. -/
def significant (o : UInt8 × Bytes) : Bool := o.1 != 0

theorem options_pair (rest : Bytes) :
    options (0 :: 0 :: rest) = ((0, []) :: (options rest).1, (options rest).2) :=
  options_cons 0 0 [] rest (by decide) rfl

theorem options_encodeOption {o : UInt8 × Bytes} (plain : Plain o) (rest : Bytes) :
    options (encodeOption o ++ rest) = (o :: (options rest).1, (options rest).2) := by
  have length : o.2.length = (UInt8.ofNat o.2.length).toNat := by
    rw [UInt8.toNat_ofNat', Nat.mod_eq_of_lt (Nat.lt_succ_of_le plain.fits)]
  exact options_cons o.1 _ o.2 rest plain.notEnd length

theorem replicate_add_two (n : Nat) :
    List.replicate (n + 2) (0 : UInt8) = 0 :: 0 :: List.replicate n 0 :=
  rfl

/-- Pairs of bytes 0 are options of type 0. -/
theorem significant_pairs {n : Nat} (even : Even n) (rest : Bytes) :
    (options (List.replicate n 0 ++ rest)).1.filter significant =
      (options rest).1.filter significant := by
  obtain ⟨r, rfl⟩ := even
  induction r with
  | zero => rfl
  | succ r ih =>
    have two : r + 1 + (r + 1) = r + r + 2 := by omega
    rw [two, replicate_add_two, List.cons_append, List.cons_append, options_pair,
      List.filter_cons_of_neg (by decide)]
    exact ih

/-- No option is read from bytes 0 at the end, however many there are. -/
theorem significant_last (n : Nat) {tail : Bytes} (ends : Ends tail) :
    (options (List.replicate n 0 ++ tail)).1.filter significant = [] := by
  have half : n = n / 2 + n / 2 ∨ n = n / 2 + n / 2 + 1 := by omega
  rcases half with pairs | odd
  · rw [significant_pairs ⟨n / 2, pairs⟩]
    rcases ends with rfl | rfl
    · decide +kernel
    · decide +kernel
  · rw [odd, List.replicate_succ', List.append_assoc, significant_pairs ⟨n / 2, rfl⟩]
    rcases ends with rfl | rfl
    · decide +kernel
    · decide +kernel

/-- What is read from padded options, apart from options of type 0. -/
theorem significant_padded {opts : List (Nat × UInt8 × Bytes)} {last : Nat} {tail : Bytes}
    (plain : ∀ o ∈ opts, Plain o.2) (paired : Paired opts) (ends : Ends tail) :
    (options (padded opts last ++ tail)).1.filter significant = opts.map Prod.snd := by
  induction opts with
  | nil => exact significant_last last ends
  | cons o opts ih =>
    have here := plain o List.mem_cons_self
    have rest := ih (fun x member => plain x (List.mem_cons_of_mem _ member))
      (fun x member => paired x (List.mem_cons_of_mem _ member))
    have front : padded (o :: opts) last ++ tail =
        List.replicate o.1 0 ++ (encodeOption o.2 ++ (padded opts last ++ tail)) := by
      simp only [padded, List.flatMap_cons, List.append_assoc]
    rw [front, significant_pairs (paired o List.mem_cons_self), options_encodeOption here,
      List.filter_cons_of_pos (by simpa [significant] using here.notPad), rest, List.map_cons]

theorem significant_encodeOptions {opts : List (UInt8 × Bytes)} {tail : Bytes}
    (plain : ∀ o ∈ opts, Plain o) (ends : Ends tail) :
    (options (encodeOptions opts ++ tail)).1.filter significant = opts := by
  induction opts with
  | nil => exact significant_last 0 ends
  | cons o opts ih =>
    have here := plain o List.mem_cons_self
    have rest := ih (fun x member => plain x (List.mem_cons_of_mem _ member))
    have front : encodeOptions (o :: opts) ++ tail =
        encodeOption o ++ (encodeOptions opts ++ tail) := by
      simp only [encodeOptions, List.flatMap_cons, List.append_assoc]
    rw [front, options_encodeOption here,
      List.filter_cons_of_pos (by simpa [significant] using here.notPad), rest]

/-! ## The parsers -/

/-- The second option is the first one, or both are options 43 and it is the first one with
bytes 0 between the sub-options. -/
inductive PaddedInside : UInt8 × Bytes → UInt8 × Bytes → Prop
  | same (o : UInt8 × Bytes) : PaddedInside o o
  | menu (subs : List (Nat × UInt8 × Bytes)) (last : Nat) (tail : Bytes)
      (plain : ∀ o ∈ subs, Plain o.2) (paired : Paired subs) (ends : Ends tail) :
      PaddedInside (43, encodeOptions (subs.map Prod.snd) ++ tail) (43, padded subs last ++ tail)

/-- Options of type 0 do not count in the search for the boot type. -/
theorem findSome?_significant (opts : List (UInt8 × Bytes)) :
    (opts.filter significant).findSome? (valueOf 71) = opts.findSome? (valueOf 71) := by
  induction opts with
  | nil => rfl
  | cons o opts ih =>
    by_cases pad : o.1 = 0
    · have silent : valueOf 71 o = none := valueOf_eq_none_iff.mpr (by rw [pad]; decide)
      rw [List.filter_cons_of_neg (by simp [significant, pad]), List.findSome?_cons, silent, ih]
    · rw [List.filter_cons_of_pos (by simpa [significant] using pad), List.findSome?_cons,
        List.findSome?_cons, ih]

/-- An option 43 says the same with and without bytes 0 inside it. -/
theorem parsePXEOption_paddedInside {o o' : UInt8 × Bytes} (inside : PaddedInside o o')
    (ret : PXEPacket) : parsePXEOption ret o.1 o.2 = parsePXEOption ret o'.1 o'.2 := by
  cases inside with
  | same => rfl
  | menu subs last tail plain paired ends =>
    have plain' : ∀ o ∈ subs.map Prod.snd, Plain o := by
      intro o member
      obtain ⟨o', member', rfl⟩ := List.mem_map.mp member
      exact plain o' member'
    have same : (options (encodeOptions (subs.map Prod.snd) ++ tail)).1.findSome? (valueOf 71) =
        (options (padded subs last ++ tail)).1.findSome? (valueOf 71) := by
      rw [← findSome?_significant, ← findSome?_significant (options (padded subs last ++ tail)).1,
        significant_encodeOptions plain' ends, significant_padded plain paired ends]
    simp only [parsePXEOption, if_true, bootTypeLoop_eq, same]

theorem parseDHCPOption_paddedInside {o o' : UInt8 × Bytes} (inside : PaddedInside o o')
    (ret : DHCPPacket) : parseDHCPOption ret o.1 o.2 = parseDHCPOption ret o'.1 o'.2 := by
  cases inside with
  | same => rfl
  | menu subs last tail plain paired ends => rfl

/-- A loop whose body ignores options of type 0, and does the same with and without bytes 0
inside an option, does the same with and without bytes 0 around the options. -/
theorem forOptions_padded {ε σ : Type} {body : σ → UInt8 → Bytes → Except ε σ}
    (ignored : ∀ st val, body st 0 val = .ok st)
    (inside : ∀ o o', PaddedInside o o' → ∀ st, body st o.1 o.2 = body st o'.1 o'.2)
    {opts : List (UInt8 × Bytes)} {opts' : List (Nat × UInt8 × Bytes)} {last : Nat}
    (plain : ∀ o ∈ opts, Plain o) (plain' : ∀ o ∈ opts', Plain o.2) (paired : Paired opts')
    (same : List.Forall₂ (fun o o' => PaddedInside o o'.2) opts opts') (st : σ) :
    forOptions body st (encodeOptions opts ++ [255]) =
      forOptions body st (padded opts' last ++ [255]) := by
  have skips : ∀ st (o : UInt8 × Bytes), significant o = false → body st o.1 o.2 = .ok st := by
    intro st o pad
    have isPad : o.1 = 0 := by simpa [significant] using pad
    rw [isPad]
    exact ignored st o.2
  have drops := foldlM_filter (fun st o => body st o.1 o.2) significant skips
  rw [forOptions_eq_foldlM, forOptions_eq_foldlM, ← drops (options (encodeOptions opts ++ [255])).1,
    ← drops (options (padded opts' last ++ [255])).1, significant_encodeOptions plain (.inr rfl),
    significant_padded plain' paired (.inr rfl)]
  apply foldlM_congr
  rw [List.forall₂_map_right_iff]
  exact same.imp (fun _ _ h => inside _ _ h)

/-- Bytes 0 in pairs before the options, any number of bytes 0 between the last option and END,
and the same inside options 43, make no difference to either parser. -/
theorem pad_pairs_transparent (header : Bytes) (opts : List (UInt8 × Bytes))
    (opts' : List (Nat × UInt8 × Bytes)) (last : Nat) (size : header.length = 240)
    (plain : ∀ o ∈ opts, Plain o) (plain' : ∀ o ∈ opts', Plain o.2) (paired : Paired opts')
    (same : List.Forall₂ (fun o o' => PaddedInside o o'.2) opts opts') :
    parseDHCP (header ++ (encodeOptions opts ++ [255])) =
        parseDHCP (header ++ (padded opts' last ++ [255])) ∧
      parsePXE (header ++ (encodeOptions opts ++ [255])) =
        parsePXE (header ++ (padded opts' last ++ [255])) := by
  have long : ∀ tail : Bytes, 240 ≤ (header ++ tail).length := by
    intro tail
    rw [List.length_append]
    omega
  have takes : ∀ tail : Bytes, (header ++ tail).take 240 = header :=
    fun tail => List.take_left' size
  have drops : ∀ tail : Bytes, (header ++ tail).drop 240 = tail :=
    fun tail => List.drop_left' size
  constructor
  · refine parseDHCP_congr (long _) (long _) (by rw [takes, takes]) ?_
    intro ret
    rw [drops, drops]
    exact forOptions_padded (fun _ _ => rfl) (fun _ _ h st => parseDHCPOption_paddedInside h st)
      plain plain' paired same ret
  · refine parsePXE_congr (long _) (long _) (by rw [takes, takes]) ?_
    intro ret
    rw [drops, drops]
    exact forOptions_padded (fun _ _ => rfl) (fun _ _ h st => parsePXEOption_paddedInside h st)
      plain plain' paired same ret

/-! ## One client -/

def guidOption : UInt8 × Bytes := (97, 0 :: List.replicate 16 7)

/-- The header of a request. -/
def requestHeader : Bytes := (discover 1 6).take 240

/-- A pair of bytes 0 before the GUID, one inside the menu choice and three before END. -/
theorem pad_pairs_transparent_sample :
    let opts : List (UInt8 × Bytes) := [(53, [1]), guidOption, (43, [71, 1, 9, 255])]
    let opts' : List (Nat × UInt8 × Bytes) :=
      [(0, 53, [1]), (2, guidOption), (0, 43, [0, 0, 71, 1, 9, 255])]
    parseDHCP (requestHeader ++ (encodeOptions opts ++ [255])) =
        parseDHCP (requestHeader ++ (padded opts' 3 ++ [255])) ∧
      parsePXE (requestHeader ++ (encodeOptions opts ++ [255])) =
        parsePXE (requestHeader ++ (padded opts' 3 ++ [255])) := by
  intro opts opts'
  have choice : PaddedInside (43, [71, 1, 9, 255]) (43, [0, 0, 71, 1, 9, 255]) :=
    .menu [(2, 71, [9])] 0 [255] (by decide) (by decide) (.inr rfl)
  exact pad_pairs_transparent requestHeader opts opts' 3 (by decide +kernel) (by decide) (by decide)
    (by decide) (.cons (.same _) (.cons (.same _) (.cons choice .nil)))

/-- A single byte 0 before the GUID, and the client is not recognised. -/
theorem pad_single_rejected :
    parseDHCP (requestHeader ++ (encodeOptions [(53, [1]), guidOption] ++ [255])) =
        .ok discovered ∧
      parseDHCP (requestHeader ++ (padded [(0, 53, [1]), (1, guidOption)] 0 ++ [255])) =
        .error (ascii "02:00:00:00:00:09 is not a PXE client") := by
  decide +kernel

end Pixiecore.Pxe
