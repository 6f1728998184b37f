import Pixiecore.Misc.Decimal

/-!
# TFTP requests and errors

`nullStr`, `mkError` and `parseRRQ` of `tftp/tftp.go:177-254`. Errors are kept apart
by what caused them; `Error.text` is what their `Error()` method returns. Client
addresses only ever appear in texts, so an address is what its `String()` returns.
-/

namespace Pixiecore.Tftp

/-- `rrq`. A block size of 0 means that none was negotiated. -/
structure Rrq where
  filename : Bytes
  blockSize : Int := 0
  deriving DecidableEq, Repr

/-- The errors of `parseRRQ` and `sendPacket`, and errors that come from elsewhere. -/
inductive Error where
  | tooSmall (addr : Bytes)
  | notRRQ (addr : Bytes)
  | noFilename (addr : Bytes)
  | noTransferMode (addr : Bytes)
  | unsupportedMode (addr mode : Bytes)
  | unterminatedName (addr : Bytes)
  | unterminatedValue (addr opt : Bytes)
  | nonInteger (addr valStr opt : Bytes)
  | unsupportedBlocksize (addr : Bytes) (val : Int)
  | clientAborted (msg : Bytes)
  | ackTimeout (seq : UInt16)
  | other (text : Bytes)
  deriving DecidableEq, Repr

/-- What the `%q` verb of `fmt` makes of a string and of an integer. Which characters it
escapes depends on Unicode tables that play no part here. -/
structure Quote where
  str : Bytes → Bytes
  int : Int → Bytes

/-- `err.Error()`. -/
def Error.text (q : Quote) : Error → Bytes
  | tooSmall addr => ascii "packet from " ++ addr ++ ascii " too small to be an RRQ"
  | notRRQ addr => ascii "packet from " ++ addr ++ ascii " is not an RRQ"
  | noFilename addr => ascii "request from " ++ addr ++ ascii " contains no filename"
  | noTransferMode addr => ascii "request from " ++ addr ++ ascii " has no transfer mode"
  | unsupportedMode addr mode =>
    addr ++ ascii " requested unsupported transfer mode " ++ q.str mode
  | unterminatedName addr => addr ++ ascii " sent unterminated option name"
  | unterminatedValue addr opt =>
    addr ++ ascii " sent unterminated value for option " ++ q.str opt
  | nonInteger addr valStr opt =>
    addr ++ ascii " sent non-integer " ++ q.str valStr ++ ascii " for option " ++ q.str opt
  | unsupportedBlocksize addr val =>
    addr ++ ascii " requested unsupported blocksize " ++ q.int val
  | clientAborted msg => ascii "client aborted transfer (" ++ q.str msg ++ ascii ")"
  | ackTimeout seq => ascii "timed out waiting for ACK #" ++ itoa seq.toNat
  | other text => text

/-- `mkError`, given what `err.Error()` returned: opcode 5, error code 0, the text and
a NUL. -/
def mkError (s : Bytes) : Bytes :=
  let b : Bytes := List.replicate (s.length + 5) 0
  let b := b.set 1 5
  copyAt b 4 s

theorem mkError_eq (s : Bytes) : mkError s = [0, 5, 0, 0] ++ s ++ [0] := by
  have fits : s.take (s.length + 1) = s := List.take_of_length_le (by omega)
  have last : List.drop s.length (0 :: List.replicate s.length (0 : UInt8)) = [0] := by
    rw [← List.replicate_succ, List.drop_replicate, Nat.succ_sub (Nat.le_refl _), Nat.sub_self]
    rfl
  simp [mkError, copyAt, List.replicate_succ, Nat.add_comm 4, fits, last]

/-- An ERROR packet has opcode 5, whatever its text. -/
theorem uint16_mkError (s : Bytes) : uint16 (mkError s) = 5 := by
  rw [mkError_eq]
  rfl

/-- `nullStr`: the string in front of the first NUL, and what follows that NUL. -/
def nullStr (b : Bytes) : Option (Bytes × Bytes) :=
  match b.findIdx? (fun c => c == 0) with
  | none => none
  | some off => some (b.take off, b.drop (off + 1))

theorem findIdx?_nul_eq_none_iff {b : Bytes} :
    b.findIdx? (fun c => c == 0) = none ↔ (0 : UInt8) ∉ b := by
  rw [List.findIdx?_eq_none_iff]
  constructor
  · intro all member
    cases all 0 member
  · intro noNul c member
    simp only [beq_eq_false_iff_ne, ne_eq]
    rintro rfl
    exact noNul member

theorem nullStr_some {b s rest : Bytes} (h : nullStr b = some (s, rest)) :
    b = s ++ 0 :: rest ∧ (0 : UInt8) ∉ s := by
  unfold nullStr at h
  split at h
  · cases h
  · rename_i off found
    simp only [Option.some.injEq, Prod.mk.injEq] at h
    obtain ⟨rfl, rfl⟩ := h
    obtain ⟨lt, isNul, before⟩ := List.findIdx?_eq_some_iff_getElem.mp found
    constructor
    · have nul : b[off] = 0 := by simpa using isNul
      rw [← nul, ← List.drop_eq_getElem_cons lt, List.take_append_drop]
    · intro member
      obtain ⟨i, hi, zero⟩ := List.mem_iff_getElem.mp member
      rw [List.getElem_take] at zero
      rw [List.length_take] at hi
      exact absurd (before i (by omega)) (by simp [zero])

theorem nullStr_shortens {b s rest : Bytes} (h : nullStr b = some (s, rest)) :
    rest.length < b.length := by
  rw [(nullStr_some h).1]
  simp only [List.length_append, List.length_cons]
  omega

theorem nullStr_append {s : Bytes} (rest : Bytes) (h : (0 : UInt8) ∉ s) :
    nullStr (s ++ 0 :: rest) = some (s, rest) := by
  have found : (s ++ 0 :: rest).findIdx? (fun c => c == 0) = some s.length := by
    rw [List.findIdx?_append, findIdx?_nul_eq_none_iff.mpr h]
    simp [List.findIdx?_cons]
  unfold nullStr
  rw [found]
  simp only [List.take_left, Option.some.injEq, Prod.mk.injEq, true_and]
  rw [List.drop_append, List.drop_eq_nil_of_le (by omega)]
  simp

theorem nullStr_eq_none_iff {b : Bytes} : nullStr b = none ↔ (0 : UInt8) ∉ b := by
  rw [← findIdx?_nul_eq_none_iff, nullStr]
  cases b.findIdx? (fun c => c == 0) with
  | none => exact iff_of_true rfl rfl
  | some off => exact iff_of_false (Option.some_ne_none _) (Option.some_ne_none _)

/-- The block size stored for a requested value. It is clamped for use on Ethernet. -/
def clampBlockSize (val : Int) : Int := if val > 1450 then 1450 else val

/-- The option loop of `parseRRQ`. -/
def parseOptions (addr : Bytes) (req : Rrq) (b : Bytes) : Except Error Rrq :=
  if b.length = 0 then .ok req
  else
    match h : nullStr b with
    | none => .error (.unterminatedName addr)
    | some (opt, b1) =>
      match h1 : nullStr b1 with
      | none => .error (.unterminatedValue addr opt)
      | some (valStr, b2) =>
        have : b2.length < b.length := Nat.lt_trans (nullStr_shortens h1) (nullStr_shortens h)
        match atoi valStr with
        | none => .error (.nonInteger addr valStr opt)
        | some val =>
          if opt = ascii "blksize" then
            if val < 8 ∨ val > 65464 then .error (.unsupportedBlocksize addr val)
            else parseOptions addr { req with blockSize := clampBlockSize val } b2
          else parseOptions addr req b2
termination_by b.length

/-- One round of the option loop, without the proofs that it terminates. -/
theorem parseOptions_step (addr : Bytes) (req : Rrq) {b : Bytes} (more : b.length ≠ 0) :
    parseOptions addr req b =
      match nullStr b with
      | none => .error (.unterminatedName addr)
      | some (opt, b1) =>
        match nullStr b1 with
        | none => .error (.unterminatedValue addr opt)
        | some (valStr, b2) =>
          match atoi valStr with
          | none => .error (.nonInteger addr valStr opt)
          | some val =>
            if opt = ascii "blksize" then
              if val < 8 ∨ val > 65464 then .error (.unsupportedBlocksize addr val)
              else parseOptions addr { req with blockSize := clampBlockSize val } b2
            else parseOptions addr req b2 := by
  rw [parseOptions, if_neg more]
  split
  · next noName => simp only [noName]
  · next opt b1 name =>
    simp only [name]
    split
    · next noValue => simp only [noValue]
    · next valStr b2 value => simp only [value]

/-- `parseRRQ`. -/
def parseRRQ (addr b : Bytes) : Except Error Rrq :=
  -- the smallest a useful packet can be: 2b opcode, 1b filename, 1b null, 1b mode, 1b null
  if b.length < 6 then .error (.tooSmall addr)
  else if uint16 b ≠ 1 then .error (.notRRQ addr)
  else
    match nullStr (b.drop 2) with
    | none => .error (.noFilename addr)
    | some (fname, b) =>
      match nullStr b with
      | none => .error (.noTransferMode addr)
      | some (mode, b) =>
        if mode ≠ ascii "octet" then .error (.unsupportedMode addr mode)
        else parseOptions addr { filename := fname } b

/-- The block sizes that can come out of `parseRRQ`. -/
def ValidBlockSize (n : Int) : Prop := n = 0 ∨ (8 ≤ n ∧ n ≤ 1450)

theorem parseOptions_blockSize (addr : Bytes) (req : Rrq) (b : Bytes) (req' : Rrq)
    (valid : ValidBlockSize req.blockSize) (h : parseOptions addr req b = .ok req') :
    ValidBlockSize req'.blockSize := by
  fun_induction parseOptions addr req b with
  | case1 req b done =>
    cases h
    exact valid
  | case6 req b more b1 valStr b2 split2 val read inRange split1 _ ih =>
    refine ih ?_ h
    right
    simp only [clampBlockSize]
    split <;> omega
  | case7 req b more opt b1 split1 valStr b2 split2 _ val read notBlksize ih => exact ih valid h
  | _ => cases h

/-- Only block sizes from 8 to 1450, or none at all, reach the transfer. -/
theorem parseRRQ_blockSize {addr b : Bytes} {req : Rrq} (h : parseRRQ addr b = .ok req) :
    ValidBlockSize req.blockSize := by
  unfold parseRRQ at h
  split at h
  · cases h
  split at h
  · cases h
  split at h
  · cases h
  split at h
  · cases h
  split at h
  · cases h
  exact parseOptions_blockSize _ _ _ _ (Or.inl rfl) h

end Pixiecore.Tftp
