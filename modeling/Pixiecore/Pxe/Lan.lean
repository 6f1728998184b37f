import Pixiecore.Misc.Transition
import Pixiecore.Pxe.Serve

/-!
# Servers that hear each other

A network with any number of ProxyDHCP and PXE servers on it, whose replies may reach other
servers. Source addresses can be forged: a datagram that starts a run may claim to come from
a server.
-/

namespace Pixiecore.Pxe

open Dhcp

/-- The two kinds of server that speak DHCP. -/
inductive Server where
  | proxyDHCP
  | pxe (httpPort : Int64)

/-- One round of a server's receive loop. -/
def Server.round : Server → World → Bytes → Received → Bytes × Option Reply
  | .proxyDHCP => serveProxyDHCPRound
  | .pxe httpPort => servePXERound httpPort

/-- A UDP address. -/
structure Endpoint where
  ip : IPv4
  port : UInt16
  deriving DecidableEq, Repr

structure Datagram where
  src : Endpoint
  dst : Endpoint
  data : Bytes
  deriving DecidableEq, Repr

/-- A PXE server's HTTP port, and the interface that it hears the network on. -/
structure Host where
  httpPort : Int64
  interfaceByIndex : Int → Except Bytes Interface
  ifIndex : Int

/-- Where the servers listen. A PXE server goes by the address that `InterfaceIP` finds. -/
structure Site where
  proxyDHCP : List Endpoint
  pxe : Endpoint → Option Host
  found : ∀ e h, pxe e = some h → interfaceIP h.interfaceByIndex h.ifIndex = .ok e.ip

/-- One event; it is marked when a server sends something. A server's buffer may hold anything
from before, and the booter may say anything. An offer is broadcast, so any number of copies of it
may get anywhere. -/
inductive Lan.Step (site : Site) : List Datagram → Bool → List Datagram → Prop
  | idle (flight : List Datagram) : Step site flight false flight
  | lost (before after : List Datagram) (d : Datagram) :
      Step site (before ++ d :: after) false (before ++ after)
  | offered (before after copies : List Datagram) (d : Datagram) (w : World) (buf buf' : Bytes)
      (ifIndex : Int) (reply : Reply) (here : d.dst ∈ site.proxyDHCP) (size : buf.length = 1024)
      (round : serveProxyDHCPRound w buf (.datagram d.data ifIndex d.src.ip d.src.port) =
        (buf', some reply))
      (broadcast : ∀ c ∈ copies, c.src = d.dst ∧ c.dst.port = reply.dstPort ∧
        c.data = reply.data) :
      Step site (before ++ d :: after) true (before ++ after ++ copies)
  | replied (before after : List Datagram) (d : Datagram) (h : Host)
      (shouldBoot : Bytes → Except Bytes Unit) (buf buf' : Bytes) (reply : Reply)
      (here : site.pxe d.dst = some h) (size : buf.length = 1024)
      (round : servePXERound h.httpPort ⟨shouldBoot, h.interfaceByIndex⟩ buf
        (.datagram d.data h.ifIndex d.src.ip d.src.port) = (buf', some reply)) :
      Step site (before ++ d :: after) true
        (before ++ after ++ [⟨d.dst, ⟨reply.dstIP, reply.dstPort⟩, reply.data⟩])

namespace Site

variable (site : Site)

/-- What the PXE server at the destination of a datagram answers. -/
def answer (d : Datagram) : Option Datagram :=
  match site.pxe d.dst with
  | none => none
  | some h =>
    match parsePXE (d.data.take 1024) with
    | .error _ => none
    | .ok req => some ⟨d.dst, d.src, replyPXE (req.answeredBy d.dst.ip h.httpPort)⟩

/-- The answer to the answer, and so on: what is sent as the `n`-th. -/
def exchange : Nat → Datagram → Option Datagram
  | 0, d => some d
  | n + 1, d => (site.answer d).bind (exchange n)

end Site

/-! ## What a round can do -/

/-- A PXE server answers a datagram with what `answer` says, whatever its buffer held. -/
theorem servePXERound_eq_answer {site : Site} {d : Datagram} {h : Host}
    (here : site.pxe d.dst = some h) (shouldBoot : Bytes → Except Bytes Unit) {buf : Bytes}
    (size : buf.length = 1024) :
    ((servePXERound h.httpPort ⟨shouldBoot, h.interfaceByIndex⟩ buf
        (.datagram d.data h.ifIndex d.src.ip d.src.port)).2.map
          (fun r => Datagram.mk d.dst ⟨r.dstIP, r.dstPort⟩ r.data)) = site.answer d := by
  simp only [servePXERound, Site.answer, here]
  rw [readFrom_snd, size, site.found _ _ here]
  cases parsePXE (d.data.take 1024) with
  | error e => rfl
  | ok req => rfl

end Pixiecore.Pxe
