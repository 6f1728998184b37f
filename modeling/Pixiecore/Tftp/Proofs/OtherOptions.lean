import Pixiecore.Tftp.Proofs.Grammar

/-!
# Options other than the block size

A request is compared with itself without its other options. The loop converts every value
before it looks at the name, so an option that is not used can still get a request rejected:
`otherOptions_ignored_iff` says just when it does not.
-/

namespace Pixiecore.Tftp

/-- The options that `parseRRQ` knows. -/
def blksizeOnly (opts : List (Bytes × Bytes)) : List (Bytes × Bytes) :=
  opts.filter (fun o => o.1 = ascii "blksize")

/-- The packets that `transfer` sends for a datagram. -/
def sentFor (addr b : Bytes) (dial : Except Bytes Unit) (handler : Handler)
    (os : List ReadOutcome) : List Bytes :=
  match parseRRQ addr b with
  | .error _ => []
  | .ok req => writes (transfer req dial addr handler os).1

/-- The two datagrams have the same outcome, and are served alike. -/
structure SameService (addr b b' : Bytes) : Prop where
  outcome : (parseRRQ addr b).toOption = (parseRRQ addr b').toOption
  packets : ∀ dial handler os, sentFor addr b dial handler os = sentFor addr b' dial handler os

/-- A decimal integer of the 64-bit range. -/
def IsInteger (s : Bytes) : Prop := ∃ v, Denotes s v ∧ -2 ^ 63 ≤ v ∧ v < 2 ^ 63

/-- A decimal integer in the range of block sizes that can be asked for. -/
def IsBlockSize (s : Bytes) : Prop := ∃ v, Denotes s v ∧ 8 ≤ v ∧ v ≤ 65464

theorem readable_iff_of_blksize {o : Bytes × Bytes} (isBlksize : o.1 = ascii "blksize") :
    Readable o ↔ IsBlockSize o.2 := by
  constructor
  · intro ⟨v, denotes, _, _, range⟩
    exact ⟨v, denotes, range isBlksize⟩
  · intro ⟨v, denotes, lo, hi⟩
    exact ⟨v, denotes, by omega, by omega, fun _ => ⟨lo, hi⟩⟩

theorem readable_iff_of_other {o : Bytes × Bytes} (other : o.1 ≠ ascii "blksize") :
    Readable o ↔ IsInteger o.2 := by
  constructor
  · intro ⟨v, denotes, lo, hi, _⟩
    exact ⟨v, denotes, lo, hi⟩
  · intro ⟨v, denotes, lo, hi⟩
    exact ⟨v, denotes, lo, hi, fun is => absurd is other⟩

/-- The other options play no part in the block size. -/
theorem negotiated_blksizeOnly (opts : List (Bytes × Bytes)) :
    negotiated (blksizeOnly opts) = negotiated opts := by
  have same : lastSome requestedSize (blksizeOnly opts) = lastSome requestedSize opts := by
    rw [lastSome, lastSome, blksizeOnly, List.filterMap_filter]
    congr 2
    funext o
    by_cases isBlksize : o.1 = ascii "blksize"
    · simp only [isBlksize, decide_true, if_true]
    · simp only [isBlksize, decide_false, Bool.false_eq_true, if_false,
        requestedSize_eq_none isBlksize]
  rw [negotiated, negotiated, same]

/-- What is sent depends on the outcome alone. -/
theorem sentFor_congr {addr b b' : Bytes}
    (outcome : (parseRRQ addr b).toOption = (parseRRQ addr b').toOption)
    (dial : Except Bytes Unit) (handler : Handler) (os : List ReadOutcome) :
    sentFor addr b dial handler os = sentFor addr b' dial handler os := by
  rw [sentFor, sentFor]
  cases first : parseRRQ addr b with
  | error err =>
    cases second : parseRRQ addr b' with
    | error err' => rfl
    | ok req' =>
      rw [first, second] at outcome
      cases outcome
  | ok req =>
    cases second : parseRRQ addr b' with
    | error err' =>
      rw [first, second] at outcome
      cases outcome
    | ok req' =>
      rw [first, second] at outcome
      cases outcome
      rfl

theorem toOption_parseRRQ (addr : Bytes) {b fname : Bytes} {opts : List (Bytes × Bytes)}
    (written : Written b fname opts) (req : Rrq) :
    (parseRRQ addr b).toOption = some req ↔
      (∀ o ∈ opts, Readable o) ∧ req = ⟨fname, negotiated opts⟩ := by
  rw [← parseRRQ_written_ok_iff written]
  cases parseRRQ addr b with
  | error err => simp [Except.toOption]
  | ok req' => simp [Except.toOption]

/-- Two requests for a file are served alike when the one is readable just when the other is,
and they ask for the same block size. -/
theorem sameService_iff {addr b b' fname : Bytes} {opts opts' : List (Bytes × Bytes)}
    (written : Written b fname opts) (written' : Written b' fname opts')
    (size : negotiated opts' = negotiated opts) :
    SameService addr b b' ↔ ((∀ o ∈ opts, Readable o) ↔ ∀ o ∈ opts', Readable o) := by
  constructor
  · intro ⟨outcome, _⟩
    have first := toOption_parseRRQ addr written ⟨fname, negotiated opts⟩
    have second := toOption_parseRRQ addr written' ⟨fname, negotiated opts⟩
    rw [size, ← outcome] at second
    simpa using first.symm.trans second
  · intro both
    have outcome : (parseRRQ addr b).toOption = (parseRRQ addr b').toOption := by
      apply Option.ext
      intro req
      rw [toOption_parseRRQ addr written, toOption_parseRRQ addr written', size, both]
    exact ⟨outcome, sentFor_congr outcome⟩

/-- Deleting the options other than the block size changes nothing just when they all have
integer values, or when there is a block size for which the request is rejected anyway. -/
theorem otherOptions_ignored_iff (addr fname : Bytes) (opts : List (Bytes × Bytes))
    (filename : (0 : UInt8) ∉ fname) (plain : NulFree opts) :
    SameService addr (encodeRRQ fname opts) (encodeRRQ fname (blksizeOnly opts)) ↔
      (∀ o ∈ opts, o.1 ≠ ascii "blksize" → IsInteger o.2) ∨
        ∃ o ∈ opts, o.1 = ascii "blksize" ∧ ¬ IsBlockSize o.2 := by
  have plain' : NulFree (blksizeOnly opts) := fun o member => plain o (List.mem_filter.mp member).1
  have sizes : (∀ o ∈ blksizeOnly opts, Readable o) ↔
      ∀ o ∈ opts, o.1 = ascii "blksize" → IsBlockSize o.2 := by
    constructor
    · intro readable o member isBlksize
      have kept : o ∈ blksizeOnly opts := List.mem_filter.mpr ⟨member, decide_eq_true isBlksize⟩
      exact (readable_iff_of_blksize isBlksize).mp (readable o kept)
    · intro sizes o member
      obtain ⟨inOpts, isBlksize⟩ := List.mem_filter.mp member
      have isBlksize := of_decide_eq_true isBlksize
      exact (readable_iff_of_blksize isBlksize).mpr (sizes o inOpts isBlksize)
  rw [sameService_iff ⟨rfl, filename, plain⟩ ⟨rfl, filename, plain'⟩ (negotiated_blksizeOnly opts),
    sizes]
  constructor
  · intro both
    by_cases good : ∀ o ∈ opts, o.1 = ascii "blksize" → IsBlockSize o.2
    · left
      intro o member other
      exact (readable_iff_of_other other).mp (both.mpr good o member)
    · right
      push Not at good
      exact good
  · intro harmless
    constructor
    · intro readable o member isBlksize
      exact (readable_iff_of_blksize isBlksize).mp (readable o member)
    · intro good o member
      rcases harmless with integers | ⟨o', member', isBlksize, bad⟩
      · by_cases isBlksize : o.1 = ascii "blksize"
        · exact (readable_iff_of_blksize isBlksize).mpr (good o member isBlksize)
        · exact (readable_iff_of_other isBlksize).mpr (integers o member isBlksize)
      · exact absurd (good o' member' isBlksize) bad

/-- A transfer size that is asked for with a zero is ignored. -/
theorem otherOptions_ignored_tsize :
    SameService [] (encodeRRQ (ascii "a") [(ascii "tsize", ascii "0")])
      (encodeRRQ (ascii "a") []) := by
  refine (otherOptions_ignored_iff [] (ascii "a") [(ascii "tsize", ascii "0")] (by decide)
    (by decide)).mpr (.inl ?_)
  intro o member _
  rw [List.mem_singleton.mp member]
  exact ⟨0, .plain (ascii "0") (by decide) (List.all_eq_true.mp (by decide)), by decide, by decide⟩

/-- A request with an unknown option that has no number as its value is rejected, and without
that option it is accepted. -/
theorem otherOption_rejected :
    ¬ SameService [] (encodeRRQ (ascii "a") [(ascii "multicast", [])])
      (encodeRRQ (ascii "a") (blksizeOnly [(ascii "multicast", [])])) := by
  intro same
  exact absurd same.outcome (by decide +kernel)

end Pixiecore.Tftp
