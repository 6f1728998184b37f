import Pixiecore.Misc.Reader
import Pixiecore.Tftp.Request

/-!
# TFTP transfers

`sendPacket` and `transfer` of `tftp/tftp.go:76-175`, as a machine that rests wherever
the code blocks in `conn.Read`. `resume` runs the code from there to the next
`conn.Read` or to the return of `transfer`, and collects what `conn.Write` was called
with on the way. A transfer against a given sequence of read outcomes is the run of
that machine (`transfer`). Errors of `conn.Write` are ignored by the source; the read
deadline shows up only as the outcome `timeout`.
-/

namespace Pixiecore.Tftp

/-- `numRetries`. -/
def numRetries : Nat := 5

/-! ## Handlers -/

/-- `Handler`, as a function of the path and the client's address. -/
abbrev Handler := Bytes → Bytes → Except Bytes Reader

/-- `Blob`. -/
def blob (b : Bytes) : Handler := fun _ _ => .ok ⟨b, .eof⟩

/-! ## `sendPacket` -/

/-- What `conn.Read` can return: a datagram, of which 256 bytes are kept, a timeout, or
some other error. -/
inductive ReadOutcome where
  | datagram (d : Bytes)
  | timeout
  | failed (text : Bytes)
  deriving DecidableEq, Repr

/-- The locals of `sendPacket` while it waits in `conn.Read`: the number of the current try
and the array received into, which every try starts zeroed. -/
structure Waiting where
  tries : Nat
  recv : Bytes
  tries_lt : tries < numRetries
  recv_size : recv.length = 256
  deriving DecidableEq, Repr

/-- Waiting for the first time in the given try. -/
def Waiting.inTry (tries : Nat) (h : tries < numRetries) : Waiting :=
  ⟨tries, List.replicate 256 0, h, List.length_replicate⟩

/-- The first try. -/
def Waiting.first : Waiting := Waiting.inTry 0 (by decide)

/-- `conn.Read(recv[:])` of a datagram. -/
def Waiting.receive (w : Waiting) (d : Bytes) : Waiting :=
  { w with recv := copyAt w.recv 0 d, recv_size := by rw [length_copyAt, w.recv_size] }

/-- What `sendPacket` does with one outcome of `conn.Read`. -/
inductive SendStep where
  /-- Read again, in the same try. -/
  | wait (w : Waiting)
  /-- `continue Tx` with a try left: write the packet again and read. -/
  | retry (w : Waiting)
  /-- Return this error, or nil. -/
  | ret (err : Option Error)

/-- The body of the receive loop of `sendPacket`. -/
def sendPacketRead (seq : UInt16) (w : Waiting) : ReadOutcome → SendStep
  | .timeout =>
    if h : w.tries + 1 < numRetries then .retry (Waiting.inTry (w.tries + 1) h)
    else .ret (some (.ackTimeout seq))
  | .failed text => .ret (some (.other text))
  | .datagram d =>
    let n := min d.length 256
    let w := w.receive d
    if n < 4 then .wait w
    else if uint16 (slice w.recv 0 2) = 4 then
      if uint16 (slice w.recv 2 4) = seq then .ret none else .wait w
    else if uint16 (slice w.recv 0 2) = 5 then
      -- the whole array is searched for the terminator, not only what was received
      .ret (some (.clientAborted (((nullStr (w.recv.drop 4)).map Prod.fst).getD [])))
    else .wait w

/-- Where `sendPacket` is after some outcomes: still in `conn.Read`, or back with an error or nil
and with outcomes that it has not read. -/
inductive Sent where
  | waiting (w : Waiting)
  | returned (err : Option Error) (rest : List ReadOutcome)

/-- `sendPacket` from a `conn.Read` on, with the packets it writes. -/
def sendPacketFrom (b : Bytes) (seq : UInt16) (w : Waiting) :
    List ReadOutcome → List Bytes × Sent
  | [] => ([], .waiting w)
  | o :: os =>
    match sendPacketRead seq w o with
    | .wait w => sendPacketFrom b seq w os
    | .retry w =>
      let (ws, r) := sendPacketFrom b seq w os
      (b :: ws, r)
    | .ret err => ([], .returned err os)

/-- `sendPacket`, against the given outcomes of `conn.Read`. -/
def sendPacket (b : Bytes) (seq : UInt16) (os : List ReadOutcome) : List Bytes × Sent :=
  let (ws, r) := sendPacketFrom b seq .first os
  (b :: ws, r)

/-! ## `transfer` -/

/-- The block size of a transfer. -/
def Rrq.bsize (req : Rrq) : Nat := if req.blockSize > 0 then req.blockSize.toNat else 512

/-- The OACK packet. -/
def oack (req : Rrq) : Bytes := [0, 6] ++ ascii "blksize" ++ [0] ++ itoa req.blockSize ++ [0]

/-- The data buffer, which keeps its size and its opcode over the whole transfer. -/
structure Buf (bsize : Nat) where
  bytes : Bytes
  size : bytes.length = bsize + 4
  opcode : bytes.take 2 = [0, 3]
  deriving DecidableEq, Repr

namespace Buf

variable {bsize : Nat}

/-- `buf := make([]byte, bsize+4); buf[1] = 3`. -/
def new (bsize : Nat) : Buf bsize :=
  ⟨(List.replicate (bsize + 4) 0).set 1 3, by simp, by simp [List.replicate_succ]⟩

/-- `binary.BigEndian.PutUint16(buf[2:4], seq)`. -/
def putSeq (buf : Buf bsize) (seq : UInt16) : Buf bsize :=
  ⟨copyAt buf.bytes 2 (bigEndian16 seq), by rw [length_copyAt, buf.size], by
    rw [take_copyAt _ _ _ (by have := buf.size; omega), buf.opcode]⟩

/-- What `io.ReadFull(f, buf[4:])` does to the buffer. -/
def putData (buf : Buf bsize) (data : Bytes) : Buf bsize :=
  ⟨copyAt buf.bytes 4 data, by rw [length_copyAt, buf.size], by
    have front := take_copyAt buf.bytes 4 data (by have := buf.size; omega)
    have shorter := congrArg (List.take 2) front
    simp only [List.take_take] at shorter
    exact shorter.trans buf.opcode⟩

end Buf

/-- The locals of the block loop while it is inside `sendPacket`. -/
structure Block (bsize : Nat) where
  f : Reader
  seq : UInt16
  buf : Buf bsize
  n : Nat
  deriving DecidableEq, Repr

/-- `buf[:n+4]`. -/
def Block.packet {bsize : Nat} (blk : Block bsize) : Bytes := blk.buf.bytes.take (blk.n + 4)

/-- How `transfer` can end: without a socket, without bytes, in one of its two failure
branches, or in its success branch. -/
inductive Result where
  | noSocket (text : Bytes)
  | noBytes (text : Bytes)
  | failed (err : Error)
  | sent
  deriving DecidableEq, Repr

/-- The two calls of `sendPacket` in `transfer`: for the OACK, with nothing read from the
file yet, and for a block. -/
inductive Phase (bsize : Nat) where
  | oack (f : Reader)
  | data (blk : Block bsize)
  deriving DecidableEq, Repr

/-- The packet passed to `sendPacket`. -/
def Phase.packet (req : Rrq) : Phase req.bsize → Bytes
  | .oack _ => Tftp.oack req
  | .data blk => blk.packet

/-- The sequence number passed to `sendPacket`. -/
def Phase.seq {bsize : Nat} : Phase bsize → UInt16
  | .oack _ => 0
  | .data blk => blk.seq

/-- Where `transfer` rests: in a call of `sendPacket`, or nowhere, because it has returned. -/
inductive State (bsize : Nat) where
  | sending (ph : Phase bsize) (w : Waiting)
  | returned (res : Result)
  deriving DecidableEq, Repr

section Machine

variable (req : Rrq)

/-- The block loop from its top to the next `conn.Read`, with the packets written. -/
def blockLoop (f : Reader) (seq : UInt16) (buf : Buf req.bsize) :
    State req.bsize × List Bytes :=
  let buf := buf.putSeq seq
  let (data, f, err) := readFull f req.bsize
  let buf := buf.putData data
  let blk : Block req.bsize := { f, seq, buf, n := data.length }
  match err with
  | none => (.sending (.data blk) .first, [blk.packet])
  | some .unexpectedEOF => (.sending (.data blk) .first, [blk.packet])
  | some e => (.returned (.failed (.other e.text)), [mkError e.text])

/-- `transfer` from its beginning to the first `conn.Read`. -/
def transferStart (dial : Except Bytes Unit) (addr : Bytes) (handler : Handler) :
    State req.bsize × List Bytes :=
  match dial with
  | .error text => (.returned (.noSocket text), [])
  | .ok _ =>
    match handler req.filename addr with
    | .error text => (.returned (.noBytes text), [mkError text])
    | .ok f =>
      if req.blockSize > 0 then (.sending (.oack f) .first, [oack req])
      else blockLoop req f 1 (Buf.new req.bsize)

/-- `transfer` after `sendPacket` returned nil. -/
def afterAck : Phase req.bsize → State req.bsize × List Bytes
  | .oack f => blockLoop req f 1 (Buf.new req.bsize)
  | .data blk =>
    if blk.n < req.bsize then (.returned .sent, [])
    else blockLoop req blk.f (blk.seq + 1) blk.buf

/-- `transfer` from one `conn.Read` to the next, with the packets written in between. -/
def resume : State req.bsize → ReadOutcome → State req.bsize × List Bytes
  | .sending ph w, o =>
    match sendPacketRead ph.seq w o with
    | .wait w => (.sending ph w, [])
    | .retry w => (.sending ph w, [ph.packet req])
    | .ret (some err) => (.returned (.failed err), [])
    | .ret none => afterAck req ph
  | .returned res, _ => (.returned res, [])

/-- What a transfer does on its socket. -/
inductive Event where
  | write (p : Bytes)
  | read (o : ReadOutcome)
  deriving DecidableEq, Repr

/-- The machine from the given state on, against the given read outcomes: what it does
until it returns or there are no more outcomes, and where it is then. -/
def run : State req.bsize → List ReadOutcome → List Event × State req.bsize
  | .returned res, _ => ([], .returned res)
  | s, [] => ([], s)
  | s, o :: os =>
    let (s, ws) := resume req s o
    let (es, s) := run s os
    (.read o :: ws.map .write ++ es, s)

@[simp] theorem run_returned (res : Result) (os : List ReadOutcome) :
    run req (.returned res) os = ([], .returned res) := by
  cases os <;> rfl

theorem run_sending (ph : Phase req.bsize) (w : Waiting) (o : ReadOutcome)
    (os : List ReadOutcome) :
    run req (.sending ph w) (o :: os) =
      (.read o :: (resume req (.sending ph w) o).2.map .write ++
        (run req (resume req (.sending ph w) o).1 os).1,
        (run req (resume req (.sending ph w) o).1 os).2) := rfl

/-- `transfer`, against the given outcomes of `conn.Read`. -/
def transfer (dial : Except Bytes Unit) (addr : Bytes) (handler : Handler)
    (os : List ReadOutcome) : List Event × State req.bsize :=
  let (s, ws) := transferStart req dial addr handler
  let (es, s) := run req s os
  (ws.map .write ++ es, s)

end Machine

/-- The packets written in a sequence of events. -/
def writes (es : List Event) : List Bytes :=
  es.filterMap (fun e => match e with | .write p => some p | .read _ => none)

@[simp] theorem writes_nil : writes [] = [] := rfl

@[simp] theorem writes_append (es es' : List Event) :
    writes (es ++ es') = writes es ++ writes es' := List.filterMap_append

@[simp] theorem writes_read (o : ReadOutcome) (es : List Event) :
    writes (.read o :: es) = writes es := rfl

@[simp] theorem writes_write (p : Bytes) (es : List Event) :
    writes (.write p :: es) = p :: writes es := rfl

@[simp] theorem writes_map (ws : List Bytes) : writes (ws.map .write) = ws := by
  induction ws with
  | nil => rfl
  | cons p ws ih => rw [List.map_cons, writes_write, ih]

end Pixiecore.Tftp
