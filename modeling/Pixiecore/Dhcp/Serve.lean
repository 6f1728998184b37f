import Pixiecore.Dhcp.Packet

/-!
# The ProxyDHCP server

`ServeProxyDHCP` and `InterfaceIP` of `dhcp/dhcp.go:25-73,192-228`. One round of the
receive loop takes the receive buffer, what `ReadFrom` returned and what the outside
world answers during the round, and yields the buffer as the next round finds it and
the datagram that was sent, if any. What the rounds log is left out.
-/

namespace Pixiecore.Dhcp

/-! ## Interfaces -/

/-- One entry of `iface.Addrs()`: a `*net.IPNet`, or some other kind of address. -/
inductive InterfaceAddr where
  | ipNet (ip : Bytes)
  | other

/-- What `net.InterfaceByIndex` returns. -/
structure Interface where
  name : Bytes
  addrs : Except Bytes (List InterfaceAddr)

/-- The address that the body of the inner loop of `InterfaceIP` returns for `a`, if any. -/
def usableAddr (f : IPv4 → Bool) : InterfaceAddr → Option IPv4
  | .ipNet ip => (to4 ip).filter f
  | .other => none

/-- `InterfaceIP`: the first IPv4 address of an interface, global unicast addresses (which
include rfc1918) first, then link-local unicast, then loopback. -/
def interfaceIP (interfaceByIndex : Int → Except Bytes Interface) (ifIdx : Int) :
    Except Bytes IPv4 :=
  match interfaceByIndex ifIdx with
  | .error e => .error e
  | .ok iface =>
    match iface.addrs with
    | .error e => .error e
    | .ok addrs =>
      let fs := [IPv4.isGlobalUnicast, IPv4.isLinkLocalUnicast, IPv4.isLoopback]
      match fs.findSome? (fun f => addrs.findSome? (usableAddr f)) with
      | some ip => .ok ip
      | none =>
        .error (ascii "interface " ++ iface.name ++ ascii " has no usable unicast addresses")

/-! ## The receive loop -/

/-- What `l.ReadFrom(buf)` can return: an error, or a datagram with the index of the
interface it came in on and its source address. -/
inductive Received where
  | error (text : Bytes)
  | datagram (data : Bytes) (ifIndex : Int) (srcIP : IPv4) (srcPort : UInt16)

/-- What `l.WriteTo` is called with. -/
structure Reply where
  data : Bytes
  ifIndex : Int
  dstIP : IPv4
  dstPort : UInt16

/-- What the booter and the operating system answer during one round. -/
structure World where
  shouldBoot : Bytes → Except Bytes Unit
  interfaceByIndex : Int → Except Bytes Interface

/-- One round of the loop in `ServeProxyDHCP`. Replies go to the broadcast address. -/
def serveProxyDHCPRound (w : World) (buf : Bytes) : Received → Bytes × Option Reply
  | .error _ => (buf, none)
  | .datagram data ifIndex _ srcPort =>
    let (buf, req) := readFrom buf data
    match parseDHCP req with
    | .error _ => (buf, none)
    | .ok req =>
      match w.shouldBoot req.mac with
      | .error _ => (buf, none)
      | .ok _ =>
        match interfaceIP w.interfaceByIndex ifIndex with
        | .error _ => (buf, none)
        | .ok ip =>
          (buf, some { data := offerDHCP { req with serverIP := some ip }, ifIndex,
                       dstIP := ⟨255, 255, 255, 255⟩, dstPort := srcPort })

/-! ## What a round can do -/

/-- The server answers only a datagram that `ParseDHCP` accepts and the booter and the
interface agree to, and then with the offer for that datagram. -/
theorem serveProxyDHCPRound_reply {w : World} {buf data : Bytes} {ifIndex : Int} {srcIP : IPv4}
    {srcPort : UInt16} {reply : Reply}
    (h : (serveProxyDHCPRound w buf (.datagram data ifIndex srcIP srcPort)).2 = some reply) :
    ∃ req ip, parseDHCP (data.take buf.length) = .ok req ∧ w.shouldBoot req.mac = .ok () ∧
      interfaceIP w.interfaceByIndex ifIndex = .ok ip ∧
      reply = { data := offerDHCP { req with serverIP := some ip }, ifIndex,
                dstIP := ⟨255, 255, 255, 255⟩, dstPort := srcPort } := by
  simp only [serveProxyDHCPRound] at h
  rw [readFrom_snd] at h
  split at h
  · cases h
  · rename_i req parsed
    split at h
    · cases h
    · rename_i agreed
      split at h
      · cases h
      · rename_i ip found
        exact ⟨req, ip, parsed, agreed, found, (Option.some.inj h).symm⟩

end Pixiecore.Dhcp
