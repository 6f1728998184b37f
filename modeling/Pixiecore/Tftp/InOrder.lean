import Pixiecore.Misc.InOrder
import Pixiecore.Tftp.Client

/-!
# A client for files of any size

The number of a block has sixteen bits, and `seq++` wraps around (`tftp/tftp.go:126`). A
client that counts the same way can load a file of any size over a line that keeps the order
of datagrams, although it may lose and repeat them.
-/

namespace Pixiecore.Tftp

open InOrder

/-- A client like `Client` that counts blocks as the server does. -/
structure RollingClient where
  /-- The number of the block expected next. -/
  next : UInt16
  blksize : Nat
  accepted : Bytes
  stopped : Bool
  deriving DecidableEq, Repr

/-- The client after it has sent its request. -/
def RollingClient.start : RollingClient := ⟨1, 512, [], false⟩

/-- What the client does with a datagram, and the datagrams it answers with. The only older block
it can recognise is the one it has accepted last. -/
def RollingClient.receive (c : RollingClient) (d : Bytes) : RollingClient × List Bytes :=
  if uint16 d = 6 then
    ({ c with blksize := (oackBlksize d).getD c.blksize }, [ackPacket 0])
  else if uint16 d = 3 then
    let number := uint16 (d.drop 2)
    let payload := d.drop 4
    if number = c.next ∧ c.stopped = false then
      ({ c with
          next := c.next + 1
          accepted := c.accepted ++ payload
          stopped := payload.length < c.blksize },
        [ackPacket number])
    else if number + 1 = c.next then (c, [ackPacket number])
    else (c, [])
  else if uint16 d = 5 then ({ c with stopped := true }, [])
  else (c, [])

/-- Both sides, and the datagrams on their way in either direction, oldest first. -/
structure Line (req : Rrq) where
  server : State req.bsize
  client : RollingClient
  toClient : List Bytes
  toServer : List Bytes

namespace Line

variable {req : Rrq}

/-- The transfer begins. -/
def start (req : Rrq) (addr : Bytes) (handler : Handler) : Line req :=
  let (server, ws) := transferStart req (.ok ()) addr handler
  { server, client := RollingClient.start, toClient := ws, toServer := [] }

/-- The server's `conn.Read` returns. -/
def read (line : Line req) (o : ReadOutcome) : Line req :=
  let (server, ws) := resume req line.server o
  { line with server, toClient := line.toClient ++ ws }

/-- A datagram reaches the client. -/
def deliver (line : Line req) (d : Bytes) : Line req :=
  let (client, ws) := line.client.receive d
  { line with client, toServer := line.toServer ++ ws }

/-- One event: the oldest datagram in one direction arrives, any datagram is lost or repeated where
it is, the read deadline fires, or a read fails. -/
inductive Step : Line req → Line req → Prop
  | toServer (line : Line req) (d : Bytes) (rest : List Bytes)
      (oldest : line.toServer = d :: rest) :
      Step line ({ line with toServer := rest }.read (.datagram d))
  | toClient (line : Line req) (d : Bytes) (rest : List Bytes)
      (oldest : line.toClient = d :: rest) :
      Step line ({ line with toClient := rest }.deliver d)
  | mangleToServer (line : Line req) (ds : List Bytes) (h : Mangle line.toServer ds) :
      Step line { line with toServer := ds }
  | mangleToClient (line : Line req) (ds : List Bytes) (h : Mangle line.toClient ds) :
      Step line { line with toClient := ds }
  | deadline (line : Line req) : Step line (line.read .timeout)
  | readError (line : Line req) (text : Bytes) : Step line (line.read (.failed text))

end Line

end Pixiecore.Tftp
