import Pixiecore.Tftp.Proofs.Step

/-!
# Delivery to a prompt client

A client that acknowledges every packet as soon as it arrives drives a transfer to its
end. A file whose length is not a multiple of the block size arrives completely. At a
multiple of the block size, the empty file included, `io.ReadFull` returns `io.EOF` where
the final empty block is due, and the transfer ends with an ERROR packet instead.
-/

namespace Pixiecore.Tftp

/-! ## The client -/

/-- The number that the acknowledgement of a packet carries: the block number of a DATA packet,
0 for an OACK. -/
def packetNumber (p : Bytes) : UInt16 := if uint16 p = 3 then uint16 (p.drop 2) else 0

/-- A client that acknowledges every packet on its first transmission. -/
structure PromptClient where
  answer : Bytes → Bytes
  acks : ∀ p, IsAck (answer p) (packetNumber p)

/-- What the server reads after it has written `ws`. -/
def PromptClient.outcome (client : PromptClient) (ws : List Bytes) : ReadOutcome :=
  match ws.getLast? with
  | some p => .datagram (client.answer p)
  | none => .timeout

/-- What the server reads in its first `n` reads from the given state on. -/
def answers (req : Rrq) (client : PromptClient) :
    Nat → State req.bsize × List Bytes → List ReadOutcome
  | n + 1, (.sending ph w, ws) =>
    client.outcome ws :: answers req client n (resume req (.sending ph w) (client.outcome ws))
  | _, _ => []

/-- A transfer to a prompt client, over at most `n` reads. -/
def transferTo (client : PromptClient) (req : Rrq) (addr : Bytes) (handler : Handler) (n : Nat) :
    List Event × State req.bsize :=
  transfer req (.ok ()) addr handler
    (answers req client n (transferStart req (.ok ()) addr handler))

/-- The transfer succeeded, and what was written is, after the optional OACK, the whole file in
numbered blocks, all of them full but the last. -/
structure DeliversCompletely (req : Rrq) (content : Bytes) (t : List Event × State req.bsize) :
    Prop where
  sent : t.2 = .returned .sent
  packets : ∃ payloads : List Bytes,
    writes t.1 = (if req.blockSize > 0 then [oack req] else []) ++
      payloads.mapIdx (fun i d => [0, 3] ++ bigEndian16 (UInt16.ofNat (i + 1)) ++ d) ∧
    payloads.length = content.length / req.bsize + 1 ∧
    payloads.flatten = content ∧
    (∀ i, i < content.length / req.bsize → payloads[i]?.map List.length = some req.bsize) ∧
    payloads[content.length / req.bsize]?.map List.length = some (content.length % req.bsize)
  noError : ∀ p ∈ writes t.1, uint16 p ≠ 5

/-! ## Packets and their numbers -/

theorem packetNumber_packetNo (req : Rrq) (content : Bytes) (i : Nat) :
    packetNumber (packetNo req content i) = UInt16.ofNat i := by
  unfold packetNumber
  cases i with
  | zero =>
    have opcode : uint16 (packetNo req content 0) ≠ 3 := by
      rw [packetNo, uint16_oack]
      decide
    rw [if_neg opcode]
    rfl
  | succ k =>
    rw [packetNo, if_pos (uint16_dataPacket ..), number_dataPacket]

theorem uint16_packetNo (req : Rrq) (content : Bytes) (i : Nat) :
    uint16 (packetNo req content i) ≠ 5 := by
  cases i with
  | zero =>
    rw [packetNo, uint16_oack]
    decide
  | succ k =>
    rw [packetNo, uint16_dataPacket]
    decide

theorem outcome_packetNo (client : PromptClient) (req : Rrq) (content : Bytes) (i : Nat) :
    ∃ d, IsAck d (UInt16.ofNat i) ∧
      client.outcome [packetNo req content i] = .datagram d := by
  refine ⟨client.answer (packetNo req content i), ?_, rfl⟩
  have := client.acks (packetNo req content i)
  rwa [packetNumber_packetNo] at this

/-- A matching ACK makes the server go on. -/
theorem resume_ack {req : Rrq} {ph : Phase req.bsize} {d : Bytes} (w : Waiting)
    (ack : IsAck d ph.seq) : resume req (.sending ph w) (.datagram d) = afterAck req ph := by
  rcases resume_cases req ph w (.datagram d) with
    ⟨_, _, _, e⟩ | ⟨_, ignored, _, _⟩ | ⟨_, timeout, _, _⟩ | ⟨_, aborts, _⟩
  · exact e
  · exact absurd ack ignored.1
  · cases timeout
  · exact absurd (ack.2.1.symm.trans aborts.2) (by decide)

/-! ## The blocks of a file -/

/-- The first `n` blocks. -/
def blocks (content : Bytes) (bsize n : Nat) : List Bytes :=
  (List.range n).map (fun i => fileBlock content bsize (i + 1))

theorem flatten_blocks (content : Bytes) (bsize n : Nat) :
    (blocks content bsize n).flatten = content.take (n * bsize) := by
  unfold blocks
  induction n with
  | zero => simp
  | succ n ih =>
    rw [List.range_succ, List.map_append, List.flatten_append, ih, Nat.succ_mul, List.take_add]
    simp [fileBlock_succ]

theorem getElem?_blocks (content : Bytes) (bsize n i : Nat) (h : i < n) :
    (blocks content bsize n)[i]?.map List.length =
      some (min bsize (content.length - i * bsize)) := by
  simp [blocks, h, length_fileBlock]

/-- The blocks that have any bytes. -/
def fullOrPartial (content : Bytes) (bsize : Nat) : Nat :=
  (content.length + (bsize - 1)) / bsize

theorem lt_fullOrPartial (content : Bytes) {bsize : Nat} (pos : 0 < bsize) (i : Nat) :
    i < fullOrPartial content bsize ↔ i * bsize < content.length := by
  unfold fullOrPartial
  rw [Nat.lt_iff_add_one_le, Nat.le_div_iff_mul_le pos, Nat.succ_mul]
  omega

theorem fullOrPartial_eq (content : Bytes) {bsize : Nat} (pos : 0 < bsize) :
    fullOrPartial content bsize =
      content.length / bsize + if content.length % bsize = 0 then 0 else 1 := by
  have split := Nat.div_add_mod content.length bsize
  have small := Nat.mod_lt content.length pos
  rw [Nat.mul_comm] at split
  unfold fullOrPartial
  split
  · exact Nat.div_eq_of_lt_le (by rw [Nat.add_zero]; omega) (by rw [Nat.succ_mul]; omega)
  · exact Nat.div_eq_of_lt_le (by rw [Nat.succ_mul]; omega) (by
      rw [Nat.succ_mul, Nat.succ_mul]
      omega)

/-! ## The run -/

/-- How a transfer to a prompt client ends. -/
def ending (req : Rrq) (content : Bytes) : State req.bsize × List Bytes :=
  if content.length % req.bsize = 0 then
    (.returned (.failed (.other (ascii "EOF"))), [mkError (ascii "EOF")])
  else (.returned .sent, [])

theorem ending_returned (req : Rrq) (content : Bytes) :
    ∃ res, (ending req content).1 = .returned res := by
  unfold ending
  split
  · exact ⟨_, rfl⟩
  · exact ⟨_, rfl⟩

/-- Up to the last block with any bytes there is a next packet; then comes the end. -/
theorem next_cases {req : Rrq} {content : Bytes} {i : Nat} {r : State req.bsize × List Bytes}
    (next : Next req ⟨content, .eof⟩ i r) (low : i ≤ fullOrPartial content req.bsize) :
    (∃ blk, i < fullOrPartial content req.bsize ∧
      SendingNo req ⟨content, .eof⟩ (i + 1) (.data blk) ∧
      r = (.sending (.data blk) .first, [packetNo req content (i + 1)])) ∨
    (fullOrPartial content req.bsize = i ∧ r = ending req content) := by
  have pos := bsize_pos req
  have here := lt_fullOrPartial content pos i
  cases next with
  | block blk sending left => exact Or.inl ⟨blk, here.mpr (left rfl), sending, rfl⟩
  | error exhausted =>
    have all : i * req.bsize = content.length := exhausted rfl
    refine Or.inr ⟨by omega, ?_⟩
    rw [ending, if_pos (by rw [← all, Nat.mul_mod_left])]
    rfl
  | done one inside short =>
    simp only at inside short
    have last : fullOrPartial content req.bsize = i := by omega
    refine Or.inr ⟨last, ?_⟩
    have before := lt_fullOrPartial content pos (i - 1)
    have partly : content.length % req.bsize ≠ 0 := by
      intro whole
      obtain ⟨q, all⟩ := Nat.dvd_of_mod_eq_zero whole
      rw [Nat.mul_comm] at all
      rw [all, Nat.mul_lt_mul_right pos] at before short
      omega
    rw [ending, if_neg partly]

section Run

variable {req : Rrq} {content : Bytes} (client : PromptClient)

/-- One round: packet `i` is acknowledged, and the server goes on. -/
theorem run_answers_sending {i : Nat} {ph : Phase req.bsize} (w : Waiting) (n : Nat)
    (sending : SendingNo req ⟨content, .eof⟩ i ph) :
    let s := State.sending ph w
    let r := afterAck req ph
    let reads := answers req client (n + 1) (s, [packetNo req content i])
    writes (run req s reads).1 = r.2 ++ writes (run req r.1 (answers req client n r)).1 ∧
      (run req s reads).2 = (run req r.1 (answers req client n r)).2 := by
  intro s r reads
  obtain ⟨d, ack, same⟩ := outcome_packetNo client req content i
  rw [← sending.seq] at ack
  have goes : resume req s (.datagram d) = r := resume_ack w ack
  have first : reads = .datagram d :: answers req client n r := by
    rw [← goes, ← same]
    rfl
  rw [first, run_sending, goes]
  simp

/-- From packet `i` on, the server sends the rest of the blocks and ends. -/
theorem run_answers_next (n i : Nat) (r : State req.bsize × List Bytes)
    (next : Next req ⟨content, .eof⟩ i r) (low : i ≤ fullOrPartial content req.bsize)
    (high : fullOrPartial content req.bsize ≤ i + n) :
    r.2 ++ writes (run req r.1 (answers req client n r)).1 =
        (List.range' (i + 1) (fullOrPartial content req.bsize - i)).map (packetNo req content) ++
          (ending req content).2 ∧
      (run req r.1 (answers req client n r)).2 = (ending req content).1 := by
  induction n generalizing i r with
  | zero =>
    rcases next_cases next low with ⟨blk, more, _, _⟩ | ⟨last, rfl⟩
    · omega
    · obtain ⟨res, ended⟩ := ending_returned req content
      simp [last, ended]
  | succ n ih =>
    rcases next_cases next low with ⟨blk, more, sending, rfl⟩ | ⟨last, rfl⟩
    · have round := run_answers_sending client .first n sending
      have rest := ih (i + 1) _ (next_afterAck sending) (by omega) (by omega)
      have count : fullOrPartial content req.bsize - i =
          fullOrPartial content req.bsize - (i + 1) + 1 := by omega
      refine ⟨?_, round.2.trans rest.2⟩
      rw [round.1, rest.1, count, List.range'_succ]
      rfl
    · obtain ⟨res, ended⟩ := ending_returned req content
      simp [last, ended]

end Run

/-- What a transfer to a prompt client writes, and how it ends. -/
theorem transferTo_eq (client : PromptClient) (req : Rrq) {addr : Bytes} {handler : Handler}
    {content : Bytes} (opened : handler req.filename addr = .ok ⟨content, .eof⟩) (n : Nat)
    (enough : fullOrPartial content req.bsize < n) :
    writes (transferTo client req addr handler n).1 =
        (if req.blockSize > 0 then [oack req] else []) ++
          (List.range' 1 (fullOrPartial content req.bsize)).map (packetNo req content) ++
          (ending req content).2 ∧
      (transferTo client req addr handler n).2 = (ending req content).1 := by
  obtain ⟨n, rfl⟩ : ∃ m, n = m + 1 := ⟨n - 1, by omega⟩
  rcases transferStart_cases req opened with ⟨sending, first, start⟩ | ⟨first, next⟩
  · have negotiated : req.blockSize > 0 := by
      by_contra absent
      rw [firstNo, if_neg absent] at first
      cases first
    have round := run_answers_sending client .first n sending
    have rest := run_answers_next client n 0 _ (next_afterAck sending) (by omega) (by omega)
    simp only [transferTo, transfer, start, if_pos negotiated]
    refine ⟨?_, round.2.trans rest.2⟩
    rw [writes_append, writes_map, round.1, rest.1]
    simp [packetNo]
  · have absent : ¬ req.blockSize > 0 := by
      intro negotiated
      rw [firstNo, if_pos negotiated] at first
      cases first
    have rest := run_answers_next client (n + 1) 0 _ next (by omega) (by omega)
    simp only [transferTo, transfer, if_neg absent, List.nil_append]
    refine ⟨?_, rest.2⟩
    rw [writes_append, writes_map, rest.1]
    simp

/-- The numbered packets are the blocks with their headers. -/
theorem map_packetNo (req : Rrq) (content : Bytes) (n : Nat) :
    (List.range' 1 n).map (packetNo req content) =
      (blocks content req.bsize n).mapIdx
        (fun i d => [0, 3] ++ bigEndian16 (UInt16.ofNat (i + 1)) ++ d) := by
  apply List.ext_getElem
  · simp [blocks]
  · intro i _ _
    simp [blocks, packetNo, dataPacket, Nat.add_comm 1]

/-- A file reaches a prompt client completely if and only if its length is not a multiple of the
block size, whatever the request, the handler and the client's way of acknowledging. -/
theorem transferTo_deliversCompletely_iff (req : Rrq) (addr content : Bytes) (handler : Handler)
    (client : PromptClient) (opened : handler req.filename addr = .ok ⟨content, .eof⟩) :
    (∀ n, content.length / req.bsize + 2 ≤ n →
      DeliversCompletely req content (transferTo client req addr handler n)) ↔
    content.length % req.bsize ≠ 0 := by
  have pos := bsize_pos req
  have count := fullOrPartial_eq content pos
  constructor
  · intro delivers whole
    rw [if_pos whole] at count
    have complete := delivers (content.length / req.bsize + 2) (Nat.le_refl _)
    have ends := (transferTo_eq client req opened (content.length / req.bsize + 2) (by omega)).2
    rw [complete.sent, ending, if_pos whole] at ends
    cases ends
  · intro partly n enough
    rw [if_neg partly] at count
    obtain ⟨written, ends⟩ := transferTo_eq client req opened n (by omega)
    rw [ending, if_neg partly, List.append_nil, count] at written
    rw [ending, if_neg partly] at ends
    have split := Nat.div_add_mod content.length req.bsize
    have small := Nat.mod_lt content.length pos
    rw [Nat.mul_comm] at split
    refine ⟨ends, ⟨blocks content req.bsize (content.length / req.bsize + 1), ?_, ?_, ?_, ?_, ?_⟩,
      ?_⟩
    · rw [written, map_packetNo]
    · rw [blocks, List.length_map, List.length_range]
    · rw [flatten_blocks, Nat.succ_mul]
      exact List.take_of_length_le (by omega)
    · intro i full
      have fits : (i + 1) * req.bsize ≤ content.length / req.bsize * req.bsize :=
        Nat.mul_le_mul_right _ full
      rw [Nat.succ_mul] at fits
      rw [getElem?_blocks _ _ _ _ (by omega)]
      exact congrArg some (by omega)
    · rw [getElem?_blocks _ _ _ _ (by omega)]
      exact congrArg some (by omega)
    · intro p member
      rw [written, List.mem_append, List.mem_map] at member
      rcases member with first | ⟨i, _, rfl⟩
      · split at first
        · rw [List.mem_singleton.mp first]
          exact uint16_packetNo req content 0
        · cases first
      · exact uint16_packetNo req content i

/-- A client that sends plain ACK packets. -/
def plainClient : PromptClient where
  answer p := [0, 4] ++ bigEndian16 (packetNumber p)
  acks p := by
    refine ⟨by simp, rfl, ?_⟩
    show uint16 (bigEndian16 (packetNumber p)) = packetNumber p
    rw [← List.append_nil (bigEndian16 _), uint16_bigEndian16]

/-- A request for blocks of eight bytes. -/
def smallBlocks : Rrq := ⟨ascii "pxelinux.0", 8⟩

theorem transferTo_delivers_tenBytes :
    DeliversCompletely smallBlocks (ascii "0123456789")
      (transferTo plainClient smallBlocks (ascii "10.0.0.2:2000")
        (blob (ascii "0123456789")) 3) := by
  have delivers := transferTo_deliversCompletely_iff smallBlocks (ascii "10.0.0.2:2000")
    (ascii "0123456789") (blob (ascii "0123456789")) plainClient rfl
  exact delivers.mpr (by decide) 3 (by decide)

/-- Eight bytes in blocks of eight: the block arrives, then an ERROR with the text "EOF". -/
theorem transferTo_fails_eightBytes :
    writes (transferTo plainClient smallBlocks (ascii "10.0.0.2:2000")
        (blob (ascii "01234567")) 3).1 =
      [oack smallBlocks, [0, 3, 0, 1] ++ ascii "01234567", mkError (ascii "EOF")] ∧
    ¬ DeliversCompletely smallBlocks (ascii "01234567")
        (transferTo plainClient smallBlocks (ascii "10.0.0.2:2000")
          (blob (ascii "01234567")) 3) := by
  refine ⟨by decide +kernel, fun complete => ?_⟩
  have opened : blob (ascii "01234567") smallBlocks.filename (ascii "10.0.0.2:2000") =
      .ok ⟨ascii "01234567", .eof⟩ := rfl
  have ends := (transferTo_eq plainClient smallBlocks opened 3 (by decide)).2
  rw [complete.sent] at ends
  cases ends

end Pixiecore.Tftp
