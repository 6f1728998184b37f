import Pixiecore.Tftp.Client
import Pixiecore.Tftp.Process

/-!
# Many clients at once

The whole TFTP server with any number of the reference clients of `Tftp/Client.lean`, over
one network that loses, repeats, delays and reorders every datagram, requests included. A
request that arrives twice starts two transfers to the same client, so a client here also
does what TFTP asks of it about addresses: it takes the source of the first packet it receives
for the server's side of its transfer, and drops what comes from anywhere else.
-/

namespace Pixiecore.Tftp

/-- A client, and the address that its transfer comes from once there is one. -/
structure Terminal where
  tid : Option Bytes
  client : Client
  deriving DecidableEq, Repr

def Terminal.start : Terminal := ⟨none, Client.start⟩

/-- What a client does with a datagram from `src`, and the datagrams it answers with. -/
def Terminal.receive (t : Terminal) (src d : Bytes) : Terminal × List Bytes :=
  if t.tid = none ∨ t.tid = some src then
    let (client, ws) := t.client.receive d
    (⟨some src, client⟩, ws)
  else (t, [])

/-- Where the server listens, and where the clients are. -/
structure Place where
  site : Site
  here : Bytes
  clients : List Bytes
  apart : here ∉ clients

/-- The server, the clients, and every datagram sent so far. -/
structure Network where
  server : Process
  terminals : Bytes → Terminal
  wire : List Datagram

/-- The datagrams that a sequence of events has put on the wire. -/
def sentIn (ws : List Wire) : List Datagram :=
  ws.filterMap (fun w => match w with | .sent d => some d | .received _ => none)

namespace Network

variable (pl : Place)

def start : Network := ⟨Process.start, fun _ => Terminal.start, []⟩

/-- A read returns in the server. -/
def wakes (n : Network) (w : Wake) : Network :=
  let (server, trace) := n.server.wake pl.site pl.here w
  { n with server, wire := n.wire ++ sentIn trace }

/-- A datagram reaches the client it is for. -/
def arrives (n : Network) (d : Datagram) : Network :=
  let (t, ws) := (n.terminals d.dst).receive d.src d.data
  { n with
    terminals := Function.update n.terminals d.dst t
    wire := n.wire ++ ws.map (fun p => ⟨d.dst, d.src, p⟩) }

/-- The address of a new socket is nobody else's, and no transfer has ever had it. -/
def Fresh (n : Network) : Wake → Prop
  | .listener _ sock _ =>
    sock ≠ pl.here ∧ sock ∉ pl.clients ∧ ∀ t ∈ n.server.transfers, t.sock ≠ sock
  | .transfer _ _ => True

/-- One event: a client sends anything to the listener, a read returns in the server, or a
datagram reaches a client. What a read returns was sent; it may have been sent long ago, and may
have arrived before. -/
inductive Step : Network → Network → Prop
  | request (n : Network) (a data : Bytes) (client : a ∈ pl.clients) :
      Step n { n with wire := n.wire ++ [⟨a, pl.here, data⟩] }
  | wakes (n : Network) (w : Wake)
      (sent : ∀ d, Wire.received d ∈ (n.server.wake pl.site pl.here w).2 → d ∈ n.wire)
      (fresh : n.Fresh pl w) : Step n (n.wakes pl w)
  | arrives (n : Network) (d : Datagram) (sent : d ∈ n.wire) (client : d.dst ∈ pl.clients) :
      Step n (n.arrives d)

end Network

end Pixiecore.Tftp
