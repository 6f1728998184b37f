import Mathlib.Logic.Relation
import Pixiecore.Tftp.Transfer

/-!
# A reference client, and the network between it and the server

The client is not part of the repository: it is what the TFTP protocol and its option
extension ask of the other side of a transfer, written down so that the two can be run
against each other.
-/

namespace Pixiecore.Tftp

/-! ## The client -/

structure Client where
  /-- The number of the block expected next. -/
  next : Nat
  blksize : Nat
  accepted : Bytes
  stopped : Bool
  deriving DecidableEq, Repr

/-- The client after it has sent its request. -/
def Client.start : Client := ⟨1, 512, [], false⟩

/-- An ACK packet. -/
def ackPacket (number : UInt16) : Bytes := [0, 4] ++ bigEndian16 number

/-- The block size in an OACK packet. -/
def oackBlksize (d : Bytes) : Option Nat := do
  let (name, rest) ← nullStr (d.drop 2)
  let (value, _) ← nullStr rest
  if name = ascii "blksize" then (← atoi value).toNat else none

/-- What the client does with a datagram, and the datagrams it answers with. It answers an OACK
with ACK 0, accepts the block it expects unless it has stopped, acknowledges older blocks
again, and stops at a short block or an ERROR. -/
def Client.receive (c : Client) (d : Bytes) : Client × List Bytes :=
  if uint16 d = 6 then
    ({ c with blksize := (oackBlksize d).getD c.blksize }, [ackPacket 0])
  else if uint16 d = 3 then
    let number := uint16 (d.drop 2)
    let payload := d.drop 4
    if number.toNat = c.next ∧ c.stopped = false then
      ({ c with
          next := c.next + 1
          accepted := c.accepted ++ payload
          stopped := payload.length < c.blksize },
        [ackPacket number])
    else if number.toNat < c.next then (c, [ackPacket number])
    else (c, [])
  else if uint16 d = 5 then ({ c with stopped := true }, [])
  else (c, [])

/-! ## The network -/

/-- Both sides, and the datagrams sent so far in either direction. -/
structure Net (req : Rrq) where
  server : State req.bsize
  client : Client
  toClient : List Bytes
  toServer : List Bytes

namespace Net

variable {req : Rrq}

/-- The server's `conn.Read` returns. -/
def read (net : Net req) (o : ReadOutcome) : Net req :=
  let (server, ws) := resume req net.server o
  { net with server, toClient := net.toClient ++ ws }

/-- A datagram reaches the client. -/
def deliver (net : Net req) (d : Bytes) : Net req :=
  let (client, ws) := net.client.receive d
  { net with client, toServer := net.toServer ++ ws }

/-- The transfer begins. -/
def start (req : Rrq) (addr : Bytes) (handler : Handler) : Net req :=
  let (server, ws) := transferStart req (.ok ()) addr handler
  { server, client := Client.start, toClient := ws, toServer := [] }

/-- One event. A datagram that was sent may arrive at any later time, any number of times, in
any order, or never; the read deadline may fire at any time, and a read may fail. A client that
no longer answers once it has stopped is one whose datagrams are all lost from then on. -/
inductive Step : Net req → Net req → Prop
  | toServer (net : Net req) (d : Bytes) (sent : d ∈ net.toServer) :
      Step net (net.read (.datagram d))
  | deadline (net : Net req) : Step net (net.read .timeout)
  | readError (net : Net req) (text : Bytes) : Step net (net.read (.failed text))
  | toClient (net : Net req) (d : Bytes) (sent : d ∈ net.toClient) : Step net (net.deliver d)

end Net

end Pixiecore.Tftp
