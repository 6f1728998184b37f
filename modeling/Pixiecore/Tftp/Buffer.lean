import Pixiecore.Misc.View
import Pixiecore.Tftp.Serve

/-!
# The TFTP listener and its buffer

`nullStr`, `parseRRQ` and `Serve` over the receive buffer. What remains to be parsed is a slice
of the buffer, but strings are copies, so that a request which was handed to a transfer does
not change when the next datagram arrives. The same for the array that `sendPacket` receives
into.
-/

namespace Pixiecore.Tftp

variable {n : Nat}

/-- `nullStr`. `bytes.IndexByte` looks at the bytes up to the length. -/
def nullStrIn (mem : Memory n) (b : View n) : Option (Option (Bytes × View n)) :=
  match (b.bytes mem).findIdx? (fun c => c == 0) with
  | none => some none
  | some off => do
    let str ← b.take off
    let remaining ← b.drop (off + 1)
    some (some (str.bytes mem, remaining))

theorem nullStrIn_shortens {mem : Memory n} {b rest : View n} {s : Bytes}
    (read : nullStrIn mem b = some (some (s, rest))) : rest.len < b.len := by
  rw [nullStrIn] at read
  split at read
  · cases read
  · obtain ⟨str, _, read⟩ := Option.bind_eq_some_iff.mp read
    obtain ⟨remaining, dropped, read⟩ := Option.bind_eq_some_iff.mp read
    cases read
    have := View.len_of_drop dropped
    omega

/-- The option loop of `parseRRQ`. -/
def parseOptionsIn (mem : Memory n) (addr : Bytes) (req : Rrq) (b : View n) :
    Option (Except Error Rrq) :=
  if b.len = 0 then some (.ok req)
  else
    match h : nullStrIn mem b with
    | none => none
    | some none => some (.error (.unterminatedName addr))
    | some (some (opt, b1)) =>
      match h1 : nullStrIn mem b1 with
      | none => none
      | some none => some (.error (.unterminatedValue addr opt))
      | some (some (valStr, b2)) =>
        have : b2.len < b.len := Nat.lt_trans (nullStrIn_shortens h1) (nullStrIn_shortens h)
        match atoi valStr with
        | none => some (.error (.nonInteger addr valStr opt))
        | some val =>
          if opt = ascii "blksize" then
            if val < 8 ∨ val > 65464 then some (.error (.unsupportedBlocksize addr val))
            else parseOptionsIn mem addr { req with blockSize := clampBlockSize val } b2
          else parseOptionsIn mem addr req b2
termination_by b.len

/-- `parseRRQ`. -/
def parseRRQIn (mem : Memory n) (addr : Bytes) (b : View n) : Option (Except Error Rrq) :=
  if b.len < 6 then some (.error (.tooSmall addr))
  else do
    let front ← b.take 2
    let opcode ← front.uint16 mem
    if opcode ≠ 1 then some (.error (.notRRQ addr))
    else do
      let b ← b.drop 2
      match ← nullStrIn mem b with
      | none => some (.error (.noFilename addr))
      | some (fname, b) =>
        match ← nullStrIn mem b with
        | none => some (.error (.noTransferMode addr))
        | some (mode, b) =>
          if mode ≠ ascii "octet" then some (.error (.unsupportedMode addr mode))
          else parseOptionsIn mem addr { filename := fname } b

/-- One round of the loop in `Serve`. -/
def serveRoundIn (q : Quote) (received : Received) (mem : Memory n) :
    Option (Memory n × Answer) :=
  match received with
  | .error _ => some (mem, .nothing)
  | .datagram addr data => do
    let mem := mem.receive data
    let b ← (View.whole : View n).take (min data.length n)
    match ← parseRRQIn mem addr b with
    | .error err => some (mem, .writeTo addr (mkError (err.text q)))
    | .ok req => some (mem, .transfer addr req)

/-- The array that `sendPacket` receives into. -/
def Waiting.memory (w : Waiting) : Memory 256 := ⟨w.recv, w.recv_size⟩

/-- What `sendPacket` does with a datagram. It slices the whole array, `recv[:2]`, `recv[2:4]` and
`recv[4:]`, whatever the length of the datagram. -/
def sendPacketReadIn (seq : UInt16) (w : Waiting) (d : Bytes) : Option SendStep :=
  let w := w.receive d
  let recv : View 256 := .whole
  if min d.length 256 < 4 then some (.wait w)
  else do
    let front ← recv.take 2
    let opcode ← front.uint16 w.memory
    if opcode = 4 then do
      let number ← recv.sub 2 4
      let acked ← number.uint16 w.memory
      if acked = seq then some (.ret none) else some (.wait w)
    else if opcode = 5 then do
      let rest ← recv.drop 4
      let msg ← nullStrIn w.memory rest
      some (.ret (some (.clientAborted ((msg.map Prod.fst).getD []))))
    else some (.wait w)

end Pixiecore.Tftp
