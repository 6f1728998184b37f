import Pixiecore.Tftp.Transfer

/-!
# What one read outcome can lead to

`sendPacketRead_cases` and `resume_cases` list what the server does with each kind of
read outcome, and `blockLoop_cases` what the block loop does next; the invariants of
the later files are all derived from these three.
-/

namespace Pixiecore.Tftp

/-! ## Datagrams -/

/-- A datagram that acknowledges packet `seq`. -/
def IsAck (d : Bytes) (seq : UInt16) : Prop :=
  4 ≤ d.length ∧ uint16 d = 4 ∧ uint16 (d.drop 2) = seq

/-- A datagram with which the client aborts the transfer. -/
def IsAbort (d : Bytes) : Prop := 4 ≤ d.length ∧ uint16 d = 5

instance (d : Bytes) (seq : UInt16) : Decidable (IsAck d seq) := by
  unfold IsAck
  infer_instance

instance (d : Bytes) : Decidable (IsAbort d) := by
  unfold IsAbort
  infer_instance

/-- The opcode and the block number are those of the datagram, whatever was in the array. -/
theorem receive_header (w : Waiting) {d : Bytes} (h : 4 ≤ d.length) :
    uint16 (slice (w.receive d).recv 0 2) = uint16 d ∧
      uint16 (slice (w.receive d).recv 2 4) = uint16 (d.drop 2) := by
  obtain ⟨a, b, c, e, rest, rfl⟩ : ∃ a b c e rest, d = a :: b :: c :: e :: rest := by
    rcases d with _ | ⟨a, _ | ⟨b, _ | ⟨c, _ | ⟨e, rest⟩⟩⟩⟩
    · simp at h
    · simp at h
    · simp at h
    · simp at h
    · exact ⟨a, b, c, e, rest, rfl⟩
  have front : ∃ tail, (w.receive (a :: b :: c :: e :: rest)).recv = a :: b :: c :: e :: tail := by
    refine ⟨rest.take 252 ++ w.recv.drop (rest.length + 4), ?_⟩
    simp only [Waiting.receive, copyAt, w.recv_size, List.take_zero, List.nil_append,
      Nat.sub_zero, List.take_succ_cons, List.cons_append, List.length_cons, Nat.zero_add]
  obtain ⟨tail, front⟩ := front
  rw [front]
  exact ⟨rfl, rfl⟩

/-- The outcome is a datagram that `sendPacket` passes over: too short, of another kind, or
an ACK of some other packet. -/
def Ignored (seq : UInt16) : ReadOutcome → Prop
  | .datagram d => ¬ IsAck d seq ∧ ¬ IsAbort d
  | _ => False

/-- The outcome ends the transfer with an error, in a try with the given number. -/
def Aborts (tries : Nat) : ReadOutcome → Prop
  | .datagram d => IsAbort d
  | .timeout => tries + 1 = numRetries
  | .failed _ => True

/-- What `sendPacket` does with an outcome. -/
theorem sendPacketRead_cases (seq : UInt16) (w : Waiting) (o : ReadOutcome) :
    (∃ d, o = .datagram d ∧ IsAck d seq ∧ sendPacketRead seq w o = .ret none) ∨
    (∃ w', Ignored seq o ∧ w'.tries = w.tries ∧ sendPacketRead seq w o = .wait w') ∨
    (∃ w', o = .timeout ∧ w'.tries = w.tries + 1 ∧ sendPacketRead seq w o = .retry w') ∨
    (∃ err, Aborts w.tries o ∧ sendPacketRead seq w o = .ret (some err)) := by
  cases o with
  | timeout =>
    by_cases left : w.tries + 1 < numRetries
    · refine Or.inr (Or.inr (Or.inl ⟨Waiting.inTry (w.tries + 1) left, rfl, rfl, ?_⟩))
      simp only [sendPacketRead, dif_pos left]
    · have last : w.tries + 1 = numRetries := by
        have := w.tries_lt
        omega
      refine Or.inr (Or.inr (Or.inr ⟨.ackTimeout seq, last, ?_⟩))
      simp only [sendPacketRead, dif_neg left]
  | failed text => exact Or.inr (Or.inr (Or.inr ⟨_, trivial, rfl⟩))
  | datagram d =>
    by_cases long : 4 ≤ d.length
    · have kept : ¬ min d.length 256 < 4 := by omega
      obtain ⟨opcode, number⟩ := receive_header w long
      by_cases isAck : uint16 d = 4
      · by_cases same : uint16 (d.drop 2) = seq
        · refine Or.inl ⟨d, rfl, ⟨long, isAck, same⟩, ?_⟩
          simp only [sendPacketRead, if_neg kept, opcode, number, if_pos isAck, if_pos same]
        · refine Or.inr (Or.inl ⟨w.receive d, ⟨fun ack => same ack.2.2, ?_⟩, rfl, ?_⟩)
          · exact fun abort => absurd (isAck.symm.trans abort.2) (by decide)
          · simp only [sendPacketRead, if_neg kept, opcode, number, if_pos isAck, if_neg same]
      · by_cases isError : uint16 d = 5
        · have sent : ∃ err, sendPacketRead seq w (.datagram d) = .ret (some err) := by
            simp only [sendPacketRead, if_neg kept, opcode, if_neg isAck, if_pos isError]
            exact ⟨_, rfl⟩
          obtain ⟨err, sent⟩ := sent
          exact Or.inr (Or.inr (Or.inr ⟨err, ⟨long, isError⟩, sent⟩))
        · refine Or.inr (Or.inl ⟨w.receive d, ⟨fun ack => isAck ack.2.1, ?_⟩, rfl, ?_⟩)
          · exact fun abort => isError abort.2
          · simp only [sendPacketRead, if_neg kept, opcode, if_neg isAck, if_neg isError]
    · have short : min d.length 256 < 4 := by omega
      refine Or.inr (Or.inl ⟨w.receive d, ⟨fun ack => long ack.1, fun abort => long abort.1⟩,
        rfl, ?_⟩)
      simp only [sendPacketRead, if_pos short]

/-- What the server does with an outcome while it is sending a packet. -/
theorem resume_cases (req : Rrq) (ph : Phase req.bsize) (w : Waiting) (o : ReadOutcome) :
    (∃ d, o = .datagram d ∧ IsAck d ph.seq ∧ resume req (.sending ph w) o = afterAck req ph) ∨
    (∃ w', Ignored ph.seq o ∧ w'.tries = w.tries ∧
      resume req (.sending ph w) o = (.sending ph w', [])) ∨
    (∃ w', o = .timeout ∧ w'.tries = w.tries + 1 ∧
      resume req (.sending ph w) o = (.sending ph w', [ph.packet req])) ∨
    (∃ err, Aborts w.tries o ∧ resume req (.sending ph w) o = (.returned (.failed err), [])) := by
  rcases sendPacketRead_cases ph.seq w o with
    ⟨d, rfl, ack, sent⟩ | ⟨w', ignored, same, sent⟩ | ⟨w', rfl, more, sent⟩ | ⟨err, aborts, sent⟩
  · exact Or.inl ⟨d, rfl, ack, by simp only [resume, sent]⟩
  · exact Or.inr (Or.inl ⟨w', ignored, same, by simp only [resume, sent]⟩)
  · exact Or.inr (Or.inr (Or.inl ⟨w', rfl, more, by simp only [resume, sent]⟩))
  · exact Or.inr (Or.inr (Or.inr ⟨err, aborts, by simp only [resume, sent]⟩))

/-! ## Blocks of a file -/

theorem bsize_pos (req : Rrq) : 0 < req.bsize := by
  unfold Rrq.bsize
  split <;> omega

/-- The `k`-th block of a file, counting from 1. -/
def fileBlock (content : Bytes) (bsize k : Nat) : Bytes :=
  slice content ((k - 1) * bsize) (min (k * bsize) content.length)

/-- The DATA packet with the `k`-th block. -/
def dataPacket (content : Bytes) (bsize k : Nat) : Bytes :=
  [0, 3] ++ bigEndian16 (UInt16.ofNat k) ++ fileBlock content bsize k

theorem uint16_dataPacket (content : Bytes) (bsize k : Nat) :
    uint16 (dataPacket content bsize k) = 3 := rfl

theorem uint16_oack (req : Rrq) : uint16 (oack req) = 6 := rfl

theorem number_dataPacket (content : Bytes) (bsize k : Nat) :
    uint16 ((dataPacket content bsize k).drop 2) = UInt16.ofNat k := by
  show uint16 (bigEndian16 (UInt16.ofNat k) ++ fileBlock content bsize k) = _
  rw [uint16_bigEndian16]

theorem payload_dataPacket (content : Bytes) (bsize k : Nat) :
    (dataPacket content bsize k).drop 4 = fileBlock content bsize k := rfl

theorem fileBlock_succ (content : Bytes) (bsize k : Nat) :
    fileBlock content bsize (k + 1) = (content.drop (k * bsize)).take bsize := by
  simp only [fileBlock, slice, Nat.add_sub_cancel, Nat.succ_mul]
  by_cases full : k * bsize + bsize ≤ content.length
  · rw [Nat.min_eq_left full, Nat.add_sub_cancel_left]
  · rw [Nat.min_eq_right (by omega), List.take_of_length_le (by simp),
      List.take_of_length_le (by simp; omega)]

/-- The server is sending the `k`-th block of `file` and has read that far. -/
structure AtBlock (req : Rrq) (file : Reader) (k : Nat) (blk : Block req.bsize) : Prop where
  pos : 1 ≤ k
  seq : blk.seq = UInt16.ofNat k
  packet : blk.packet = dataPacket file.content req.bsize k
  length : blk.n = (fileBlock file.content req.bsize k).length
  rest : blk.f = { file with content := file.content.drop (k * req.bsize) }
  inside : (k - 1) * req.bsize ≤ file.content.length

/-- The packet assembled in the buffer. -/
theorem packet_putData (req : Rrq) (f : Reader) (seq : UInt16) (buf : Buf req.bsize) (data : Bytes)
    (fits : data.length ≤ req.bsize) :
    (Block.packet { f, seq, buf := (buf.putSeq seq).putData data, n := data.length }) =
      [0, 3] ++ bigEndian16 seq ++ data := by
  have size := buf.size
  have whole : ((buf.putSeq seq).putData data).bytes.take (4 + data.length) =
      (buf.putSeq seq).bytes.take 4 ++ data :=
    take_copyAt_end _ _ _ (by rw [(buf.putSeq seq).size]; omega)
  have header : (buf.putSeq seq).bytes.take (2 + (bigEndian16 seq).length) =
      buf.bytes.take 2 ++ bigEndian16 seq :=
    take_copyAt_end _ _ _ (by rw [length_bigEndian16]; omega)
  rw [Block.packet, Nat.add_comm, whole]
  rw [length_bigEndian16, buf.opcode] at header
  rw [header]

theorem blockLoop_sends (req : Rrq) {f rest : Reader} {data : Bytes} {err : Option ReadError}
    (seq : UInt16) (buf : Buf req.bsize) (read : readFull f req.bsize = (data, rest, err))
    (goes : err = none ∨ err = some .unexpectedEOF) :
    let blk : Block req.bsize :=
      { f := rest, seq, buf := (buf.putSeq seq).putData data, n := data.length }
    blockLoop req f seq buf = (.sending (.data blk) .first, [blk.packet]) := by
  intro blk
  unfold blockLoop
  rw [read]
  rcases goes with rfl | rfl
  · rfl
  · rfl

theorem blockLoop_fails (req : Rrq) {f rest : Reader} {data : Bytes} {e : ReadError}
    (seq : UInt16) (buf : Buf req.bsize) (read : readFull f req.bsize = (data, rest, some e))
    (fails : e ≠ .unexpectedEOF) :
    blockLoop req f seq buf = (.returned (.failed (.other e.text)), [mkError e.text]) := by
  unfold blockLoop
  rw [read]
  cases e with
  | eof => rfl
  | unexpectedEOF => exact absurd rfl fails
  | other text => rfl

/-- The top of the block loop, after `k` blocks of the file: either the next block is sent,
or reading failed and an ERROR is sent. For a file that ends with EOF the latter happens
exactly when nothing is left. -/
theorem blockLoop_cases (req : Rrq) (file : Reader) (k : Nat) (buf : Buf req.bsize)
    (inside : k * req.bsize ≤ file.content.length) :
    let f : Reader := { file with content := file.content.drop (k * req.bsize) }
    (∃ blk, AtBlock req file (k + 1) blk ∧
      (file.final = .eof → k * req.bsize < file.content.length) ∧
      blockLoop req f (UInt16.ofNat (k + 1)) buf =
        (.sending (.data blk) .first, [blk.packet])) ∨
    ((file.final = .eof → k * req.bsize = file.content.length) ∧
      blockLoop req f (UInt16.ofNat (k + 1)) buf =
        (.returned (.failed (.other file.final.text)), [mkError file.final.text])) := by
  intro f
  have positive := bsize_pos req
  have left : f.content.length = file.content.length - k * req.bsize := List.length_drop
  have next : fileBlock file.content req.bsize (k + 1) = f.content.take req.bsize :=
    fileBlock_succ ..
  -- whatever was read is the next block
  have reads : ∀ data rest, data = f.content.take req.bsize → rest = f.content.drop req.bsize →
      AtBlock req file (k + 1)
        { f := { f with content := rest }, seq := UInt16.ofNat (k + 1),
          buf := (buf.putSeq (UInt16.ofNat (k + 1))).putData data, n := data.length } := by
    rintro data rest rfl rfl
    refine ⟨by omega, rfl, ?_, by rw [next], ?_, inside⟩
    · rw [packet_putData _ _ _ _ _ (by rw [List.length_take]; omega), dataPacket, next]
    · simp only [f, List.drop_drop, Nat.succ_mul]
  by_cases full : req.bsize ≤ f.content.length
  · have read : readFull f req.bsize =
        (f.content.take req.bsize, { f with content := f.content.drop req.bsize }, none) := by
      rw [readFull, if_pos full]
    exact Or.inl ⟨_, reads _ _ rfl rfl, fun _ => by omega,
      blockLoop_sends req _ buf read (.inl rfl)⟩
  · have all : f.content.take req.bsize = f.content := List.take_of_length_le (by omega)
    have none : f.content.drop req.bsize = [] := List.drop_eq_nil_of_le (by omega)
    have read : readFull f req.bsize = (f.content, { f with content := [] },
        some (if f.content ≠ [] ∧ f.final = .eof then .unexpectedEOF else f.final)) := by
      rw [readFull, if_neg full]
    by_cases more : f.content ≠ [] ∧ f.final = .eof
    · have pos := List.length_pos_iff.mpr more.1
      rw [if_pos more] at read
      exact Or.inl ⟨_, reads _ _ all.symm none.symm, fun _ => by omega,
        blockLoop_sends req _ buf read (.inr rfl)⟩
    · rw [if_neg more] at read
      by_cases cut : f.final = .unexpectedEOF
      · refine Or.inl ⟨_, reads _ _ all.symm none.symm, fun isEof => ?_,
          blockLoop_sends req _ buf read (.inr (congrArg some cut))⟩
        exact absurd (cut.symm.trans isEof) (by decide)
      · refine Or.inr ⟨fun isEof => ?_, blockLoop_fails req _ buf read cut⟩
        have empty : f.content.length = 0 := by
          by_contra nonempty
          exact more ⟨fun nil => nonempty (by rw [nil, List.length_nil]), isEof⟩
        omega

/-! ## Packets by their number

The OACK counts as packet 0, the DATA packet with the `k`-th block as packet `k`. -/

/-- The packet with the given number. -/
def packetNo (req : Rrq) (content : Bytes) : Nat → Bytes
  | 0 => oack req
  | k + 1 => dataPacket content req.bsize (k + 1)

/-- The number of the first packet of a transfer. -/
def firstNo (req : Rrq) : Nat := if req.blockSize > 0 then 0 else 1

/-- The server is sending packet `i` of `file`. -/
inductive SendingNo (req : Rrq) (file : Reader) : Nat → Phase req.bsize → Prop
  | oack (negotiated : req.blockSize > 0) : SendingNo req file 0 (.oack file)
  | data {k : Nat} {blk : Block req.bsize} (h : AtBlock req file k blk) :
      SendingNo req file k (.data blk)

theorem packetNo_of_pos {req : Rrq} {content : Bytes} {k : Nat} (h : 1 ≤ k) :
    packetNo req content k = dataPacket content req.bsize k := by
  obtain ⟨k, rfl⟩ : ∃ j, k = j + 1 := ⟨k - 1, by omega⟩
  rfl

namespace SendingNo

variable {req : Rrq} {file : Reader} {i : Nat} {ph : Phase req.bsize}

theorem packet (h : SendingNo req file i ph) : ph.packet req = packetNo req file.content i := by
  cases h with
  | oack => rfl
  | data h => exact h.packet.trans (packetNo_of_pos h.pos).symm

theorem seq (h : SendingNo req file i ph) : ph.seq = UInt16.ofNat i := by
  cases h with
  | oack => rfl
  | data h => exact h.seq

theorem inside (h : SendingNo req file i ph) : (i - 1) * req.bsize ≤ file.content.length := by
  cases h with
  | oack => omega
  | data h => exact h.inside

end SendingNo

/-- What a file can still be after packet `i`: there is a next packet, or reading on fails, or
packet `i` was a short block. -/
inductive Next (req : Rrq) (file : Reader) (i : Nat) : State req.bsize × List Bytes → Prop
  | block (blk : Block req.bsize) (h : SendingNo req file (i + 1) (.data blk))
      (left : file.final = .eof → i * req.bsize < file.content.length) :
      Next req file i (.sending (.data blk) .first, [packetNo req file.content (i + 1)])
  | error (exhausted : file.final = .eof → i * req.bsize = file.content.length) :
      Next req file i
        (.returned (.failed (.other file.final.text)), [mkError file.final.text])
  | done (pos : 1 ≤ i) (inside : (i - 1) * req.bsize ≤ file.content.length)
      (short : file.content.length < i * req.bsize) :
      Next req file i (.returned .sent, [])

theorem next_blockLoop (req : Rrq) (file : Reader) (k : Nat) (buf : Buf req.bsize)
    (inside : k * req.bsize ≤ file.content.length) :
    Next req file k (blockLoop req { file with content := file.content.drop (k * req.bsize) }
      (UInt16.ofNat (k + 1)) buf) := by
  rcases blockLoop_cases req file k buf inside with ⟨blk, h, left, same⟩ | ⟨exhausted, same⟩
  · have sending := SendingNo.data h
    rw [same, show blk.packet = _ from sending.packet]
    exact Next.block blk sending left
  · rw [same]
    exact Next.error exhausted

theorem length_fileBlock (content : Bytes) {bsize k : Nat} (h : 1 ≤ k) :
    (fileBlock content bsize k).length = min bsize (content.length - (k - 1) * bsize) := by
  obtain ⟨k, rfl⟩ : ∃ j, k = j + 1 := ⟨k - 1, by omega⟩
  rw [fileBlock_succ, List.length_take, List.length_drop, Nat.add_sub_cancel]

/-- What the server goes on to after packet `i` was acknowledged. -/
theorem next_afterAck {req : Rrq} {file : Reader} {i : Nat} {ph : Phase req.bsize}
    (h : SendingNo req file i ph) : Next req file i (afterAck req ph) := by
  cases h with
  | oack =>
    have start := next_blockLoop req file 0 (Buf.new req.bsize) (by omega)
    rwa [Nat.zero_mul, List.drop_zero] at start
  | data h =>
    rename_i blk
    have len := h.length
    rw [length_fileBlock _ h.pos] at len
    have split : i * req.bsize = (i - 1) * req.bsize + req.bsize := by
      rw [← Nat.succ_mul, Nat.succ_eq_add_one, Nat.sub_add_cancel h.pos]
    have inside := h.inside
    simp only [afterAck]
    by_cases short : blk.n < req.bsize
    · rw [if_pos short]
      exact Next.done h.pos inside (by omega)
    · rw [if_neg short, h.seq, h.rest]
      have wraps : UInt16.ofNat i + 1 = UInt16.ofNat (i + 1) := by
        rw [UInt16.ofNat_add]
        rfl
      rw [wraps]
      exact next_blockLoop req file i blk.buf (by omega)

/-- How a transfer begins once the handler has returned a reader. -/
theorem transferStart_cases (req : Rrq) {addr : Bytes} {handler : Handler} {file : Reader}
    (opened : handler req.filename addr = .ok file) :
    (SendingNo req file 0 (.oack file) ∧ firstNo req = 0 ∧
      transferStart req (.ok ()) addr handler =
        (.sending (.oack file) .first, [packetNo req file.content 0])) ∨
    (firstNo req = 1 ∧ Next req file 0 (transferStart req (.ok ()) addr handler)) := by
  unfold transferStart firstNo
  simp only [opened]
  by_cases negotiated : req.blockSize > 0
  · rw [if_pos negotiated, if_pos negotiated]
    exact Or.inl ⟨SendingNo.oack negotiated, rfl, rfl⟩
  · rw [if_neg negotiated, if_neg negotiated]
    have start := next_blockLoop req file 0 (Buf.new req.bsize) (by omega)
    rw [Nat.zero_mul, List.drop_zero] at start
    exact Or.inr ⟨rfl, start⟩

end Pixiecore.Tftp
