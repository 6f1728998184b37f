import Pixiecore.Tftp.Proofs.Discipline
import Pixiecore.Tftp.Proofs.Grammar

/-!
# The block size, from the request to the wire

The packets of a transfer are copies of the OACK, if a block size was asked for, copies of the
first block, of the second and so on, and an ERROR at most. The size that the OACK announces is
the size of all the blocks but the last.
-/

namespace Pixiecore.Tftp

/-! ## The packets of a transfer -/

/-- The DATA packet with the given number. -/
def dataOf (k : Nat) (payload : Bytes) : Bytes :=
  [0, 3] ++ bigEndian16 (UInt16.ofNat k) ++ payload

/-- Each block in turn, so many times, counting from `k`. -/
def blockPackets (k : Nat) : List (Nat × Bytes) → List Bytes
  | [] => []
  | (copies, payload) :: blocks =>
    List.replicate copies (dataOf k payload) ++ blockPackets (k + 1) blocks

/-- Blocks of a given size, of which only the last may be shorter. -/
structure Sized (size : Nat) (blocks : List (Nat × Bytes)) : Prop where
  sent : ∀ blk ∈ blocks, 0 < blk.1
  atMost : ∀ blk ∈ blocks, blk.2.length ≤ size
  full : ∀ blk ∈ blocks.dropLast, blk.2.length = size

theorem Sized.nil (size : Nat) : Sized size [] := by
  refine ⟨?_, ?_, ?_⟩
  · intro blk member
    cases member
  · intro blk member
    cases member
  · intro blk member
    cases member

theorem Sized.cons {size copies : Nat} {payload : Bytes} {blocks : List (Nat × Bytes)}
    (sized : Sized size blocks) (sent : 0 < copies) (atMost : payload.length ≤ size)
    (full : blocks ≠ [] → payload.length = size) : Sized size ((copies, payload) :: blocks) := by
  refine ⟨List.forall_mem_cons.mpr ⟨sent, sized.sent⟩,
    List.forall_mem_cons.mpr ⟨atMost, sized.atMost⟩, ?_⟩
  cases blocks with
  | nil =>
    intro blk member
    cases member
  | cons blk blocks =>
    rw [List.dropLast_cons_cons]
    exact List.forall_mem_cons.mpr ⟨full (List.cons_ne_nil _ _), sized.full⟩

theorem length_fileBlock_le (content : Bytes) {bsize k : Nat} (pos : 1 ≤ k) :
    (fileBlock content bsize k).length ≤ bsize := by
  rw [length_fileBlock content pos]
  omega

/-- The packets from the `i`-th block on. There is an `i`-th block only if the blocks before it
were full. -/
theorem writes_of_disciplined {req : Rrq} {file : Reader} {i : Nat} {es : List Event}
    (disciplined : Disciplined req file i es) (pos : 1 ≤ i) :
    ∃ blocks errors, writes es = blockPackets i blocks ++ errors ∧
      (∀ p ∈ errors, uint16 p = 5) ∧ Sized req.bsize blocks ∧
      (blocks ≠ [] → (i - 1) * req.bsize ≤ file.content.length) := by
  induction disciplined with
  | done => exact ⟨[], [], rfl, by simp, Sized.nil _, by simp⟩
  | error =>
    refine ⟨[], [mkError file.final.text], rfl, ?_, Sized.nil _, by simp⟩
    intro p member
    rw [List.mem_singleton.mp member]
    exact uint16_mkError _
  | @last i seg inside sends =>
    obtain ⟨r, written, once, _⟩ := sends.copies
    refine ⟨[(r, fileBlock file.content req.bsize i)], [], ?_, by simp,
      (Sized.nil _).cons once (length_fileBlock_le _ pos) (fun more => absurd rfl more),
      fun _ => inside⟩
    rw [written, packetNo_of_pos pos]
    simp only [blockPackets, List.append_nil]
    rfl
  | @next i seg es inside sends acked rest ih =>
    obtain ⟨blocks, errors, after, isError, sized, reached⟩ := ih (by omega)
    obtain ⟨r, written, once, _⟩ := sends.copies
    refine ⟨(r, fileBlock file.content req.bsize i) :: blocks, errors, ?_, isError,
      sized.cons once (length_fileBlock_le _ pos) ?_, fun _ => inside⟩
    · rw [writes_append, written, after, packetNo_of_pos pos, blockPackets, List.append_assoc]
      rfl
    · intro more
      have split : i * req.bsize = (i - 1) * req.bsize + req.bsize := by
        rw [← Nat.succ_mul, Nat.succ_eq_add_one, Nat.sub_add_cancel pos]
      have far := reached more
      rw [Nat.add_sub_cancel] at far
      rw [length_fileBlock file.content pos]
      omega

/-- The packets of a transfer whose handler has succeeded. -/
theorem writes_transfer (req : Rrq) {addr : Bytes} {handler : Handler} {file : Reader}
    (os : List ReadOutcome) (opened : handler req.filename addr = .ok file) :
    ∃ oacks blocks errors,
      writes (transfer req (.ok ()) addr handler os).1 =
        List.replicate oacks (oack req) ++ blockPackets 1 blocks ++ errors ∧
      (0 < oacks ↔ req.blockSize > 0) ∧ (∀ p ∈ errors, uint16 p = 5) ∧
      Sized req.bsize blocks := by
  rcases transferStart_cases req opened with ⟨sending, first, start⟩ | ⟨first, next⟩
  · have negotiated : req.blockSize > 0 := by
      cases sending with
      | oack negotiated => exact negotiated
    obtain ⟨tail, rest, split, sends, after⟩ := continues_run .first os sending
    obtain ⟨r, written, _⟩ := sends.copies
    have whole : writes (transfer req (.ok ()) addr handler os).1 =
        List.replicate (r + 1) (oack req) ++ writes rest := by
      simp only [transfer, start, split, writes_append, writes_map, written, List.replicate_succ]
      rfl
    rcases after with rfl | ⟨_, disciplined⟩
    · exact ⟨r + 1, [], [], by rw [whole]; simp [blockPackets], by simp [negotiated], by simp,
        Sized.nil _⟩
    · obtain ⟨blocks, errors, packets, isError, sized, _⟩ :=
        writes_of_disciplined disciplined (Nat.le_refl 1)
      exact ⟨r + 1, blocks, errors, by rw [whole, packets, List.append_assoc], by simp [negotiated],
        isError, sized⟩
  · have plain : ¬ req.blockSize > 0 := by
      intro negotiated
      rw [firstNo, if_pos negotiated] at first
      cases first
    have disciplined := disciplined_of_next next (fun ph h => continues_run .first os h)
    obtain ⟨blocks, errors, packets, isError, sized, _⟩ :=
      writes_of_disciplined disciplined (Nat.le_refl 1)
    exact ⟨0, blocks, errors, packets, by simp [plain], isError, sized⟩

/-! ## The announcement -/

/-- The packet is an OACK of one option, with a decimal value. -/
def Announces (p name : Bytes) (v : Int) : Prop :=
  uint16 p = 6 ∧ ∃ rest valStr, nullStr (p.drop 2) = some (name, rest) ∧
    nullStr rest = some (valStr, []) ∧ Denotes valStr v

theorem denotes_itoa {i : Int} (lo : -2 ^ 63 ≤ i) (hi : i < 2 ^ 63) : Denotes (itoa i) i :=
  ((atoi_eq_some_iff (itoa i) i).mp (atoi_itoa i lo hi)).1

theorem announces_oack {req : Rrq} (lo : -2 ^ 63 ≤ req.blockSize) (hi : req.blockSize < 2 ^ 63) :
    Announces (oack req) (ascii "blksize") req.blockSize := by
  refine ⟨rfl, itoa req.blockSize ++ [0], itoa req.blockSize, ?_,
    nullStr_append [] (zero_notMem_itoa _), denotes_itoa lo hi⟩
  have tail : (oack req).drop 2 = ascii "blksize" ++ 0 :: (itoa req.blockSize ++ [0]) := by
    simp only [oack, List.append_assoc, List.cons_append, List.nil_append, List.drop_succ_cons,
      List.drop_zero]
  rw [tail]
  exact nullStr_append _ (by decide)

/-- A block size among readable options has a last one. -/
theorem exists_lastRequested {opts : List (Bytes × Bytes)} (readable : ∀ o ∈ opts, Readable o)
    (asked : ∃ o ∈ opts, o.1 = ascii "blksize") : ∃ v, LastRequested opts v := by
  have size : ∀ o ∈ opts, o.1 = ascii "blksize" →
      ∃ v, requestedSize o = some v ∧ Denotes o.2 v := by
    intro o member isBlksize
    obtain ⟨v, denotes, lo, hi, _⟩ := readable o member
    refine ⟨v, ?_, denotes⟩
    rw [requestedSize, if_pos isBlksize]
    exact (atoi_eq_some_iff o.2 v).mpr ⟨denotes, lo, hi⟩
  cases last : lastSome requestedSize opts with
  | none =>
    obtain ⟨o, member, isBlksize⟩ := asked
    obtain ⟨v, found, _⟩ := size o member isBlksize
    rw [lastSome_eq_none.mp last o member] at found
    cases found
  | some v =>
    obtain ⟨front, o, back, split, found, silent⟩ := lastSome_eq_some_iff.mp last
    have isBlksize : o.1 = ascii "blksize" := by
      by_contra other
      rw [requestedSize_eq_none other] at found
      cases found
    have inOpts : o ∈ opts := by
      rw [split]
      exact List.mem_append_right _ List.mem_cons_self
    obtain ⟨v', _, denotes⟩ := size o inOpts isBlksize
    refine ⟨v', front, o.2, back, ?_, denotes, ?_⟩
    · rw [split, ← isBlksize]
    · intro y member again
      have there : y ∈ opts := by
        rw [split]
        exact List.mem_append_right _ (List.mem_cons_of_mem _ member)
      obtain ⟨_, answers, _⟩ := size y there again
      rw [silent y member] at answers
      cases answers

/-- The block size of an accepted request. -/
theorem blockSize_of_lastRequested {addr b fname : Bytes} {opts : List (Bytes × Bytes)} {req : Rrq}
    (accepted : parseRRQ addr b = .ok req) (written : Written b fname opts) {r : Int}
    (last : LastRequested opts r) : req.blockSize = min r 1450 ∧ 8 ≤ r := by
  obtain ⟨readable, rfl⟩ := (parseRRQ_written_ok_iff written req).mp accepted
  obtain ⟨found, lo, _⟩ := lastSome_of_lastRequested readable last
  refine ⟨?_, lo⟩
  simp only [negotiated, found, Option.map_some, Option.getD_some]

/-- For every accepted request, an OACK is sent just when a block size was asked for. It
announces a size from 8 to 1450 that is not larger than the last one asked for, and this is the
size of all blocks but the last, which may be shorter. Without an OACK that size is 512. -/
theorem transfer_keeps_blockSize (addr b : Bytes) (req : Rrq) (handler : Handler) (file : Reader)
    (os : List ReadOutcome) (accepted : parseRRQ addr b = .ok req)
    (opened : handler req.filename addr = .ok file) :
    ∃ fname opts, Written b fname opts ∧
    ∃ (oacks : Nat) (announcement : Bytes) (blocks : List (Nat × Bytes)) (errors : List Bytes)
      (v : Nat),
      writes (transfer req (.ok ()) addr handler os).1 =
        List.replicate oacks announcement ++ blockPackets 1 blocks ++ errors ∧
      (∀ p ∈ errors, uint16 p = 5) ∧
      (0 < oacks ↔ ∃ o ∈ opts, o.1 = ascii "blksize") ∧
      (0 < oacks → Announces announcement (ascii "blksize") v ∧ 8 ≤ v ∧ v ≤ 1450 ∧
        ∃ r, LastRequested opts r ∧ v ≤ r) ∧
      (oacks = 0 → v = 512) ∧ Sized v blocks := by
  obtain ⟨fname, opts, written⟩ := written_of_parseRRQ accepted
  obtain ⟨oacks, blocks, errors, packets, some, isError, sized⟩ := writes_transfer req os opened
  have readable := ((parseRRQ_written_ok_iff written req).mp accepted).1
  have asked : req.blockSize > 0 ↔ ∃ o ∈ opts, o.1 = ascii "blksize" := by
    constructor
    · intro positive
      by_contra none
      have isZero : req.blockSize = 0 := by
        rw [((parseRRQ_written_ok_iff written req).mp accepted).2]
        exact negotiated_eq_zero (fun o member isBlksize => none ⟨o, member, isBlksize⟩)
      omega
    · intro asked
      obtain ⟨r, last⟩ := exists_lastRequested readable asked
      have size := blockSize_of_lastRequested accepted written last
      omega
  refine ⟨fname, opts, written, oacks, oack req, blocks, errors, req.bsize, packets, isError,
    some.trans asked, ?_, ?_, sized⟩
  · intro sent
    obtain ⟨r, last⟩ := exists_lastRequested readable (asked.mp (some.mp sent))
    have size := blockSize_of_lastRequested accepted written last
    have positive := some.mp sent
    have isSize : (req.bsize : Int) = req.blockSize := by
      rw [Rrq.bsize, if_pos positive]
      omega
    rw [isSize]
    rcases parseRRQ_blockSize accepted with none | ⟨least, most⟩
    · omega
    · exact ⟨announces_oack (by omega) (by omega), by omega, by omega, r, last, by omega⟩
  · intro none
    have plain : ¬ req.blockSize > 0 := by
      rw [← some]
      omega
    rw [Rrq.bsize, if_neg plain]

/-- A ten-byte file in blocks of eight: the announcement, the full block and the short one. -/
theorem transfer_keeps_blockSize_tenBytes :
    let req : Rrq := ⟨ascii "a", 8⟩
    let b := encodeRRQ (ascii "a") [(ascii "blksize", ascii "8")]
    parseRRQ [] b = .ok req ∧
      ∃ (oacks : Nat) (announcement : Bytes) (blocks : List (Nat × Bytes)) (errors : List Bytes)
        (v : Nat),
        writes (transfer req (.ok ()) [] (blob (ascii "0123456789"))
            [.datagram [0, 4, 0, 0], .datagram [0, 4, 0, 1]]).1 =
          List.replicate oacks announcement ++ blockPackets 1 blocks ++ errors ∧
        0 < oacks ∧ Sized v blocks := by
  intro req b
  have accepted : parseRRQ [] b = .ok req := by decide +kernel
  obtain ⟨fname, opts, written, oacks, announcement, blocks, errors, v, packets, _, asked, _, _,
    sized⟩ := transfer_keeps_blockSize [] b req (blob (ascii "0123456789"))
      ⟨ascii "0123456789", .eof⟩ [.datagram [0, 4, 0, 0], .datagram [0, 4, 0, 1]] accepted rfl
  have shape : Written b (ascii "a") [(ascii "blksize", ascii "8")] :=
    ⟨rfl, by decide, by decide⟩
  obtain ⟨-, rfl⟩ := written.unique shape
  exact ⟨accepted, oacks, announcement, blocks, errors, v, packets,
    asked.mpr ⟨_, List.mem_cons_self, rfl⟩, sized⟩

end Pixiecore.Tftp
