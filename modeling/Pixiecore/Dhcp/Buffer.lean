import Pixiecore.Dhcp.Serve
import Pixiecore.Misc.View

/-!
# The ProxyDHCP server and its buffer

`ParseDHCP` and `ServeProxyDHCP` once more, with the receive buffer as the array it is. What
`DhcpOption` returns and what a packet refers to are slices of that buffer, whose capacity
reaches to the end of it, and behind the bytes that were received there are those of earlier
datagrams. The result is `none` where an index or a slice is out of bounds.
-/

namespace Pixiecore.Dhcp

variable {n : Nat}

/-- `DhcpOption`. -/
def dhcpOptionIn (mem : Memory n) (b : View n) : Option (UInt8 × View n × View n) :=
  if b.len < 2 then some (255, .nil, .nil)
  else do
    let typ ← b.index mem 0
    if typ = 255 then some (255, .nil, .nil)
    else do
      let l ← b.index mem 1
      if b.len < l.toNat + 2 then some (255, .nil, .nil)
      else do
        let val ← b.sub 2 (2 + l.toNat)
        let next ← b.drop (2 + l.toNat)
        some (typ, val, next)

theorem dhcpOptionIn_shortens {mem : Memory n} {b val next : View n} {typ : UInt8}
    (read : dhcpOptionIn mem b = some (typ, val, next)) (more : typ ≠ 255) :
    next.len < b.len := by
  rw [dhcpOptionIn] at read
  split at read
  · cases read
    exact absurd rfl more
  next long =>
  obtain ⟨typ', _, read⟩ := Option.bind_eq_some_iff.mp read
  split at read
  · cases read
    exact absurd rfl more
  obtain ⟨l, _, read⟩ := Option.bind_eq_some_iff.mp read
  split at read
  · cases read
    exact absurd rfl more
  obtain ⟨val', _, read⟩ := Option.bind_eq_some_iff.mp read
  obtain ⟨next', dropped, read⟩ := Option.bind_eq_some_iff.mp read
  cases read
  have := View.len_of_drop dropped
  omega

/-- The option loop of the two parsers. -/
def forOptionsIn {ε σ : Type} (mem : Memory n)
    (body : σ → UInt8 → View n → Option (Except ε σ)) (st : σ) (b : View n) :
    Option (Except ε σ) :=
  match h : dhcpOptionIn mem b with
  | none => none
  | some (typ, val, next) =>
    if more : typ = 255 then some (.ok st)
    else
      have := dhcpOptionIn_shortens h more
      match body st typ val with
      | none => none
      | some (.error e) => some (.error e)
      | some (.ok st) => forOptionsIn mem body st next
termination_by b.len

/-- `DHCPPacket` as `ParseDHCP` returns it: slices of the buffer. -/
structure PacketIn (n : Nat) where
  tid : View n
  mac : View n
  guid : Option (View n) := none

/-- What the packet is when it is looked at. -/
def PacketIn.read (mem : Memory n) (p : PacketIn n) : DHCPPacket :=
  { tid := p.tid.bytes mem, mac := p.mac.bytes mem, guid := p.guid.map (View.bytes mem) }

/-- The `switch` of the option loop in `ParseDHCP`. -/
def parseDHCPOptionIn (mem : Memory n) (ret : PacketIn n) (typ : UInt8) (val : View n) :
    Option (Except Bytes (PacketIn n)) :=
  if typ = 53 then
    if val.len ≠ 1 then
      some (.error (packetFrom (ret.mac.bytes mem) " has malformed option 53"))
    else do
      let messageType ← val.index mem 0
      if messageType ≠ 1 then
        some (.error (packetFrom (ret.mac.bytes mem) " is not a DHCPDISCOVER"))
      else some (.ok ret)
  else if typ = 93 then
    if val.len ≠ 2 then
      some (.error (packetFrom (ret.mac.bytes mem) " has malformed option 93"))
    else do
      let architecture ← val.uint16 mem
      if architecture ≠ 0 then
        some (.error (hardwareAddrString (ret.mac.bytes mem) ++ ascii " is not an x86 PXE client"))
      else some (.ok ret)
  else if typ = 97 then
    if val.len ≠ 17 then
      some (.error (packetFrom (ret.mac.bytes mem) " has malformed option 97"))
    else do
      let guidType ← val.index mem 0
      if guidType ≠ 0 then
        some (.error (packetFrom (ret.mac.bytes mem) " has malformed option 97"))
      else do
        let guid ← val.drop 1
        some (.ok { ret with guid := some guid })
  else some (.ok ret)

/-- `b[1] != 1 && b[2] != 6`, where the second byte is looked at only if need be. -/
def notEthernetIn (mem : Memory n) (b : View n) : Option Bool := do
  let htype ← b.index mem 1
  if htype = 1 then some false
  else do
    let hlen ← b.index mem 2
    some (hlen != 6)

/-- `ParseDHCP`. -/
def parseDHCPIn (mem : Memory n) (b : View n) : Option (Except Bytes (PacketIn n)) :=
  if b.len < 240 then some (.error (ascii "packet too short"))
  else do
    let tid ← b.sub 4 8
    let mac ← b.sub 28 34
    let op ← b.index mem 0
    if op ≠ 1 then some (.error (packetFrom (mac.bytes mem) " is not a BOOTP request"))
    else do
      let notEthernet ← notEthernetIn mem b
      if notEthernet then some (.error (packetFrom (mac.bytes mem) " is not for an Ethernet PHY"))
      else do
        let magic ← b.sub 236 240
        if magic.bytes mem ≠ dhcpMagic then
          some (.error (packetFrom (mac.bytes mem) " is not a DHCP request"))
        else do
          let opts ← b.drop 240
          match ← forOptionsIn mem (parseDHCPOptionIn mem) { tid, mac } opts with
          | .error e => some (.error e)
          | .ok ret =>
            if ret.guid.isNone then
              some (.error (hardwareAddrString (ret.mac.bytes mem) ++ ascii " is not a PXE client"))
            else some (.ok ret)

/-- `buf := make([]byte, 1024)`, here and in `ServePXE`. -/
def bufSize : Nat := 1024

/-- One round of the loop in `ServeProxyDHCP`, in which `buf[:n]` is parsed after `ReadFrom` has
overwritten the front of the buffer. -/
def serveProxyDHCPRoundIn (w : World) (received : Received) (mem : Memory n) :
    Option (Memory n × Option Reply) :=
  match received with
  | .error _ => some (mem, none)
  | .datagram data ifIndex _ srcPort => do
    let mem := mem.receive data
    let b ← (View.whole : View n).take (min data.length n)
    match ← parseDHCPIn mem b with
    | .error _ => some (mem, none)
    | .ok req =>
      match w.shouldBoot (req.mac.bytes mem) with
      | .error _ => some (mem, none)
      | .ok _ =>
        match interfaceIP w.interfaceByIndex ifIndex with
        | .error _ => some (mem, none)
        | .ok ip =>
          some (mem, some { data := offerDHCP { req.read mem with serverIP := some ip }, ifIndex,
                            dstIP := ⟨255, 255, 255, 255⟩, dstPort := srcPort })

end Pixiecore.Dhcp
