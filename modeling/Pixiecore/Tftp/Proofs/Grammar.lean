import Pixiecore.Misc.Fold
import Pixiecore.Tftp.Transfer

/-!
# The grammar of requests

What an RRQ looks like on the wire (`encodeRRQ`), and that `parseRRQ` accepts exactly the
requests of that form whose option values it can read. The option loop is a fold of
`optionStep` over the pairs, so everything about many options comes from one option.
-/

namespace Pixiecore.Tftp

/-! ## Requests on the wire -/

/-- The options of a request: names and values, each with a NUL after it. -/
def encodeOptions (opts : List (Bytes × Bytes)) : Bytes :=
  opts.flatMap (fun o => o.1 ++ [0] ++ o.2 ++ [0])

/-- An RRQ in octet mode. -/
def encodeRRQ (fname : Bytes) (opts : List (Bytes × Bytes)) : Bytes :=
  [0, 1] ++ fname ++ [0] ++ ascii "octet" ++ [0] ++ encodeOptions opts

/-- No NUL in a name or a value. -/
def NulFree (opts : List (Bytes × Bytes)) : Prop :=
  ∀ o ∈ opts, (0 : UInt8) ∉ o.1 ∧ (0 : UInt8) ∉ o.2

instance (opts : List (Bytes × Bytes)) : Decidable (NulFree opts) :=
  inferInstanceAs (Decidable (∀ o ∈ opts, (0 : UInt8) ∉ o.1 ∧ (0 : UInt8) ∉ o.2))

/-- The datagram is an RRQ for the file, with these options. -/
structure Written (b fname : Bytes) (opts : List (Bytes × Bytes)) : Prop where
  shape : b = encodeRRQ fname opts
  filename : (0 : UInt8) ∉ fname
  options : NulFree opts

theorem encodeOptions_cons (o : Bytes × Bytes) (opts : List (Bytes × Bytes)) :
    encodeOptions (o :: opts) = o.1 ++ 0 :: (o.2 ++ 0 :: encodeOptions opts) := by
  simp only [encodeOptions, List.flatMap_cons, List.append_assoc, List.cons_append,
    List.nil_append]

theorem encodeRRQ_eq (fname : Bytes) (opts : List (Bytes × Bytes)) :
    encodeRRQ fname opts =
      0 :: 1 :: (fname ++ 0 :: (ascii "octet" ++ 0 :: encodeOptions opts)) := by
  simp only [encodeRRQ, List.append_assoc, List.cons_append, List.nil_append]

/-- A terminated string is recognised together with what follows it. -/
theorem terminated_inj {s s' rest rest' : Bytes} (plain : (0 : UInt8) ∉ s)
    (plain' : (0 : UInt8) ∉ s') (same : s ++ 0 :: rest = s' ++ 0 :: rest') :
    s = s' ∧ rest = rest' := by
  have read := nullStr_append rest plain
  rw [same, nullStr_append rest' plain'] at read
  cases read
  exact ⟨rfl, rfl⟩

theorem encodeOptions_inj {opts opts' : List (Bytes × Bytes)} (plain : NulFree opts)
    (plain' : NulFree opts') (same : encodeOptions opts = encodeOptions opts') : opts = opts' := by
  induction opts generalizing opts' with
  | nil =>
    cases opts' with
    | nil => rfl
    | cons o' opts' =>
      rw [encodeOptions_cons] at same
      exact absurd same.symm (List.append_ne_nil_of_right_ne_nil _ (List.cons_ne_nil _ _))
  | cons o opts ih =>
    cases opts' with
    | nil =>
      rw [encodeOptions_cons] at same
      exact absurd same (List.append_ne_nil_of_right_ne_nil _ (List.cons_ne_nil _ _))
    | cons o' opts' =>
      have here := plain o List.mem_cons_self
      have here' := plain' o' List.mem_cons_self
      rw [encodeOptions_cons, encodeOptions_cons] at same
      obtain ⟨name, same⟩ := terminated_inj here.1 here'.1 same
      obtain ⟨value, same⟩ := terminated_inj here.2 here'.2 same
      have rest := ih (fun x member => plain x (List.mem_cons_of_mem _ member))
        (fun x member => plain' x (List.mem_cons_of_mem _ member)) same
      rw [Prod.ext name value, rest]

/-- A datagram is an RRQ in one way at most. -/
theorem Written.unique {b fname fname' : Bytes} {opts opts' : List (Bytes × Bytes)}
    (written : Written b fname opts) (written' : Written b fname' opts') :
    fname = fname' ∧ opts = opts' := by
  have same := written.shape.symm.trans written'.shape
  rw [encodeRRQ_eq, encodeRRQ_eq] at same
  have tails := (List.cons.inj (List.cons.inj same).2).2
  obtain ⟨name, rest⟩ := terminated_inj written.filename written'.filename tails
  have inOptions := (terminated_inj (by decide) (by decide) rest).2
  exact ⟨name, encodeOptions_inj written.options written'.options inOptions⟩

/-! ## One option -/

/-- What the option loop does with an option. -/
def optionStep (addr : Bytes) (req : Rrq) (o : Bytes × Bytes) : Except Error Rrq :=
  match atoi o.2 with
  | none => .error (.nonInteger addr o.2 o.1)
  | some val =>
    if o.1 = ascii "blksize" then
      if val < 8 ∨ val > 65464 then .error (.unsupportedBlocksize addr val)
      else .ok { req with blockSize := clampBlockSize val }
    else .ok req

/-- The value is a decimal integer of the 64-bit range, and a block size is one that can be
asked for. -/
def Readable (o : Bytes × Bytes) : Prop :=
  ∃ v, Denotes o.2 v ∧ -2 ^ 63 ≤ v ∧ v < 2 ^ 63 ∧ (o.1 = ascii "blksize" → 8 ≤ v ∧ v ≤ 65464)

/-- The block size that an option asks for. -/
def requestedSize (o : Bytes × Bytes) : Option Int :=
  if o.1 = ascii "blksize" then atoi o.2 else none

theorem clampBlockSize_eq (val : Int) : clampBlockSize val = min val 1450 := by
  rw [clampBlockSize]
  split
  · omega
  · omega

theorem optionStep_ok_iff (addr : Bytes) (req : Rrq) (o : Bytes × Bytes) (req' : Rrq) :
    optionStep addr req o = .ok req' ↔
      Readable o ∧
        req' =
          { req with blockSize := ((requestedSize o).map (min · 1450)).getD req.blockSize } := by
  rw [optionStep, requestedSize]
  cases parsed : atoi o.2 with
  | none =>
    simp only [reduceCtorEq, false_iff]
    intro ⟨⟨v, denotes, lo, hi, _⟩, _⟩
    rw [(atoi_eq_some_iff o.2 v).mpr ⟨denotes, lo, hi⟩] at parsed
    cases parsed
  | some val =>
    obtain ⟨denotes, lo, hi⟩ := (atoi_eq_some_iff o.2 val).mp parsed
    have only : ∀ v, Denotes o.2 v ∧ -2 ^ 63 ≤ v ∧ v < 2 ^ 63 → v = val := by
      intro v other
      have again := (atoi_eq_some_iff o.2 v).mpr other
      rw [parsed] at again
      exact (Option.some.inj again).symm
    by_cases isBlksize : o.1 = ascii "blksize"
    · simp only [isBlksize, if_true, Option.map_some, Option.getD_some, clampBlockSize_eq]
      by_cases outside : val < 8 ∨ val > 65464
      · rw [if_pos outside]
        simp only [reduceCtorEq, false_iff]
        intro ⟨⟨v, there, lo', hi', range⟩, _⟩
        have := range isBlksize
        have := only v ⟨there, lo', hi'⟩
        omega
      · rw [if_neg outside, Except.ok.injEq]
        have readable : Readable o := ⟨val, denotes, lo, hi, fun _ => by omega⟩
        rw [and_iff_right readable]
        exact eq_comm
    · have readable : Readable o := ⟨val, denotes, lo, hi, fun is => absurd is isBlksize⟩
      simp only [isBlksize, if_false, Option.map_none, Option.getD_none, Except.ok.injEq]
      rw [and_iff_right readable]
      exact eq_comm

/-! ## The option loop -/

theorem parseOptions_nil (addr : Bytes) (req : Rrq) : parseOptions addr req [] = .ok req := by
  rw [parseOptions, if_pos List.length_nil]

/-- The loop takes one pair off the front. -/
theorem parseOptions_cons (addr : Bytes) (req : Rrq) {o : Bytes × Bytes} (rest : Bytes)
    (name : (0 : UInt8) ∉ o.1) (value : (0 : UInt8) ∉ o.2) :
    parseOptions addr req (o.1 ++ 0 :: (o.2 ++ 0 :: rest)) =
      (optionStep addr req o).bind (fun req => parseOptions addr req rest) := by
  have nonempty : (o.1 ++ 0 :: (o.2 ++ 0 :: rest)).length ≠ 0 := by
    simp only [List.length_append, List.length_cons]
    omega
  simp only [parseOptions_step addr req nonempty, nullStr_append _ name, nullStr_append _ value,
    optionStep]
  cases atoi o.2 with
  | none => rfl
  | some val =>
    simp only
    split
    · split
      · rfl
      · rfl
    · rfl

theorem parseOptions_encodeOptions (addr : Bytes) (req : Rrq) (opts : List (Bytes × Bytes))
    (plain : NulFree opts) :
    parseOptions addr req (encodeOptions opts) = opts.foldlM (optionStep addr) req := by
  induction opts generalizing req with
  | nil => exact parseOptions_nil addr req
  | cons o opts ih =>
    obtain ⟨name, value⟩ := plain o List.mem_cons_self
    rw [encodeOptions_cons, parseOptions_cons addr req _ name value, List.foldlM_cons]
    cases optionStep addr req o with
    | error err => rfl
    | ok req' => exact ih req' (fun x member => plain x (List.mem_cons_of_mem _ member))

/-- What the loop has read to its end is a sequence of pairs. -/
theorem encodeOptions_of_parseOptions {addr : Bytes} {req req' : Rrq} {b : Bytes}
    (accepted : parseOptions addr req b = .ok req') :
    ∃ opts, b = encodeOptions opts ∧ NulFree opts := by
  fun_induction parseOptions addr req b with
  | case1 req b done =>
    refine ⟨[], List.length_eq_zero_iff.mp done, ?_⟩
    intro o member
    cases member
  | case6 req b more b1 valStr b2 split2 val read inRange split1 _ ih =>
    obtain ⟨opts, rest, plain⟩ := ih accepted
    obtain ⟨front, name⟩ := nullStr_some split1
    obtain ⟨front', value⟩ := nullStr_some split2
    refine ⟨(ascii "blksize", valStr) :: opts, ?_, ?_⟩
    · rw [encodeOptions_cons, front, front', rest]
    · exact List.forall_mem_cons.mpr ⟨⟨name, value⟩, plain⟩
  | case7 req b more opt b1 split1 valStr b2 split2 _ val read notBlksize ih =>
    obtain ⟨opts, rest, plain⟩ := ih accepted
    obtain ⟨front, name⟩ := nullStr_some split1
    obtain ⟨front', value⟩ := nullStr_some split2
    refine ⟨(opt, valStr) :: opts, ?_, ?_⟩
    · rw [encodeOptions_cons, front, front', rest]
    · exact List.forall_mem_cons.mpr ⟨⟨name, value⟩, plain⟩
  | _ => cases accepted

/-! ## Requests -/

/-- The block size that a request with these options is served with. -/
def negotiated (opts : List (Bytes × Bytes)) : Int :=
  ((lastSome requestedSize opts).map (min · 1450)).getD 0

theorem foldl_requestedSize (opts : List (Bytes × Bytes)) (req : Rrq) :
    opts.foldl (fun req o =>
      { req with blockSize := ((requestedSize o).map (min · 1450)).getD req.blockSize }) req =
    { req with
      blockSize := ((lastSome requestedSize opts).map (min · 1450)).getD req.blockSize } := by
  induction opts generalizing req with
  | nil => rfl
  | cons o opts ih =>
    rw [List.foldl_cons, ih, lastSome_cons]
    cases lastSome requestedSize opts with
    | none => rfl
    | some v => rfl

/-- The outcome for a datagram of the right form. -/
theorem parseRRQ_written {addr b fname : Bytes} {opts : List (Bytes × Bytes)}
    (written : Written b fname opts) :
    parseRRQ addr b = opts.foldlM (optionStep addr) { filename := fname } := by
  obtain ⟨rfl, plain, plains⟩ := written
  have long : ¬ (encodeRRQ fname opts).length < 6 := by
    rw [encodeRRQ_eq]
    simp only [List.length_cons, List.length_append]
    have : (ascii "octet").length = 5 := rfl
    omega
  have opcode : uint16 (encodeRRQ fname opts) = 1 := by
    rw [encodeRRQ_eq]
    rfl
  have name : nullStr ((encodeRRQ fname opts).drop 2) =
      some (fname, ascii "octet" ++ 0 :: encodeOptions opts) := by
    rw [encodeRRQ_eq]
    exact nullStr_append _ plain
  have mode : nullStr (ascii "octet" ++ 0 :: encodeOptions opts) =
      some (ascii "octet", encodeOptions opts) := nullStr_append _ (by decide)
  rw [parseRRQ, if_neg long, if_neg (not_not_intro opcode), name]
  simp only [mode, ne_eq, not_true_eq_false, if_false]
  exact parseOptions_encodeOptions addr _ opts plains

/-- A request of the right form is accepted when all its options are readable. -/
theorem parseRRQ_written_ok_iff {addr b fname : Bytes} {opts : List (Bytes × Bytes)}
    (written : Written b fname opts) (req : Rrq) :
    parseRRQ addr b = .ok req ↔ (∀ o ∈ opts, Readable o) ∧ req = ⟨fname, negotiated opts⟩ := by
  rw [parseRRQ_written written,
    foldlM_ok_iff (optionStep addr) Readable _ (optionStep_ok_iff addr), foldl_requestedSize]
  rfl

theorem take_of_uint16_one {b : Bytes} (long : 2 ≤ b.length) (opcode : uint16 b = 1) :
    b.take 2 = [0, 1] := by
  match b, long with
  | hi :: lo :: rest, _ =>
    have value := congrArg UInt16.toNat opcode
    have high := hi.toNat_lt
    have low := lo.toNat_lt
    simp only [uint16, UInt16.toNat_ofNat', UInt16.reduceToNat] at value
    have isZero : hi = 0 := UInt8.toNat_inj.mp (by simp only [UInt8.reduceToNat]; omega)
    have isOne : lo = 1 := UInt8.toNat_inj.mp (by simp only [UInt8.reduceToNat]; omega)
    rw [isZero, isOne]
    rfl

/-- What is accepted has the right form. -/
theorem written_of_parseRRQ {addr b : Bytes} {req : Rrq} (accepted : parseRRQ addr b = .ok req) :
    ∃ fname opts, Written b fname opts := by
  unfold parseRRQ at accepted
  split at accepted
  · cases accepted
  next long =>
  split at accepted
  · cases accepted
  next opcode =>
  split at accepted
  · cases accepted
  next fname b1 name =>
  split at accepted
  · cases accepted
  next mode b2 isMode =>
  split at accepted
  · cases accepted
  next octet =>
  obtain ⟨opts, rest, plain⟩ := encodeOptions_of_parseOptions accepted
  obtain ⟨front, nulFree⟩ := nullStr_some name
  obtain ⟨front', _⟩ := nullStr_some isMode
  refine ⟨fname, opts, ?_, nulFree, plain⟩
  have header := take_of_uint16_one (by omega) (not_not.mp opcode)
  rw [← List.take_append_drop 2 b, header, front, front', not_not.mp octet, rest, encodeRRQ_eq]
  rfl

/-- The last block size that the options ask for. -/
def LastRequested (opts : List (Bytes × Bytes)) (v : Int) : Prop :=
  ∃ front s back, opts = front ++ (ascii "blksize", s) :: back ∧ Denotes s v ∧
    ∀ o ∈ back, o.1 ≠ ascii "blksize"

theorem requestedSize_eq_none {o : Bytes × Bytes} (other : o.1 ≠ ascii "blksize") :
    requestedSize o = none := if_neg other

/-- A readable block size is the number that its text denotes. -/
theorem requestedSize_of_readable {s : Bytes} {v : Int} (readable : Readable (ascii "blksize", s))
    (denotes : Denotes s v) :
    requestedSize (ascii "blksize", s) = some v ∧ 8 ≤ v ∧ v ≤ 65464 := by
  obtain ⟨v', denotes', lo, hi, range⟩ := readable
  rw [denotes.unique denotes', requestedSize, if_pos rfl,
    (atoi_eq_some_iff s v').mpr ⟨denotes', lo, hi⟩]
  exact ⟨rfl, range rfl⟩

theorem lastSome_of_lastRequested {opts : List (Bytes × Bytes)} {v : Int}
    (readable : ∀ o ∈ opts, Readable o) (last : LastRequested opts v) :
    lastSome requestedSize opts = some v ∧ 8 ≤ v ∧ v ≤ 65464 := by
  obtain ⟨front, s, back, split, denotes, others⟩ := last
  have here : (ascii "blksize", s) ∈ opts := by
    rw [split]
    exact List.mem_append_right _ List.mem_cons_self
  obtain ⟨size, range⟩ := requestedSize_of_readable (readable _ here) denotes
  refine ⟨lastSome_eq_some_iff.mpr ⟨front, _, back, split, size, ?_⟩, range⟩
  intro o member
  exact requestedSize_eq_none (others o member)

theorem negotiated_eq_zero {opts : List (Bytes × Bytes)}
    (others : ∀ o ∈ opts, o.1 ≠ ascii "blksize") : negotiated opts = 0 := by
  rw [negotiated, lastSome_eq_none.mpr (fun o member => requestedSize_eq_none (others o member))]
  rfl

/-- `parseRRQ` accepts exactly the datagrams of the form of an RRQ with readable options. There
is one way to read such a datagram, and the request has its file name and its last block size,
or none. -/
theorem parseRRQ_accepts_grammar (addr b : Bytes) :
    ((∃ req, parseRRQ addr b = .ok req) ↔
      ∃ fname opts, Written b fname opts ∧ ∀ o ∈ opts, Readable o) ∧
    (∀ fname opts fname' opts', Written b fname opts → Written b fname' opts' →
      fname = fname' ∧ opts = opts') ∧
    ∀ req fname opts, parseRRQ addr b = .ok req → Written b fname opts →
      req.filename = fname ∧ (∀ v, LastRequested opts v → req.blockSize = min v 1450) ∧
        ((∀ o ∈ opts, o.1 ≠ ascii "blksize") → req.blockSize = 0) := by
  refine ⟨?_, ?_, ?_⟩
  · constructor
    · intro ⟨req, accepted⟩
      obtain ⟨fname, opts, written⟩ := written_of_parseRRQ accepted
      exact ⟨fname, opts, written, ((parseRRQ_written_ok_iff written req).mp accepted).1⟩
    · intro ⟨fname, opts, written, readable⟩
      exact ⟨_, (parseRRQ_written_ok_iff written _).mpr ⟨readable, rfl⟩⟩
  · intro fname opts fname' opts' written written'
    exact written.unique written'
  · intro req fname opts accepted written
    obtain ⟨readable, rfl⟩ := (parseRRQ_written_ok_iff written req).mp accepted
    refine ⟨rfl, ?_, negotiated_eq_zero⟩
    intro v last
    rw [negotiated, (lastSome_of_lastRequested readable last).1]
    rfl

/-- A request with two block sizes and another option. -/
def threeOptions : List (Bytes × Bytes) :=
  [(ascii "blksize", ascii "512"), (ascii "tsize", ascii "0"), (ascii "blksize", ascii "+1468")]

/-- The last block size counts, and is clamped. -/
theorem parseRRQ_accepts_grammar_threeOptions :
    let b := encodeRRQ (ascii "a") threeOptions
    parseRRQ [] b = .ok ⟨ascii "a", 1450⟩ ∧
      (∃ fname opts, Written b fname opts ∧ ∀ o ∈ opts, Readable o) ∧
      (1450 : Int) = min 1468 1450 := by
  intro b
  have accepted : parseRRQ [] b = .ok ⟨ascii "a", 1450⟩ := by decide +kernel
  have grammar := parseRRQ_accepts_grammar [] b
  have last : LastRequested threeOptions 1468 :=
    ⟨threeOptions.take 2, ascii "+1468", [], rfl,
      .plus (ascii "1468") (by decide) (List.all_eq_true.mp (by decide)), by simp⟩
  exact ⟨accepted, grammar.1.mp ⟨_, accepted⟩,
    (grammar.2.2 _ (ascii "a") threeOptions accepted ⟨rfl, by decide, by decide⟩).2.1 1468 last⟩

end Pixiecore.Tftp
