import Pixiecore.Dhcp.Options
import Pixiecore.Misc.NetAddr

/-!
# ProxyDHCP packets

`ParseDHCP` and `OfferDHCP` of `dhcp/dhcp.go:75-179`. A nil slice of the source is
`none` where the source compares it with nil, or fills it in later. Error values are
the texts `err.Error()` would return.
-/

namespace Pixiecore.Dhcp

/-- `DhcpMagic`. -/
def dhcpMagic : Bytes := [99, 130, 83, 99]

/-- Go's `b[i]` for `i < len(b)`. -/
def byteAt (b : Bytes) (i : Nat) : UInt8 := b.getD i 0

/-- `DHCPPacket`. `guid` is nil until an option 97 was seen, `serverIP` until the
server fills it in. -/
structure DHCPPacket where
  tid : Bytes
  mac : Bytes
  guid : Option Bytes := none
  serverIP : Option IPv4 := none
  deriving DecidableEq, Repr

/-- What `b.Write(p.GUID)` appends. -/
def DHCPPacket.guidBytes (p : DHCPPacket) : Bytes := p.guid.getD []

/-- What `b.Write(p.ServerIP)` appends. -/
def DHCPPacket.serverIPBytes (p : DHCPPacket) : Bytes := (p.serverIP.map IPv4.bytes).getD []

/-! ## Parsing -/

/-- `fmt.Errorf("packet from %s ...", ret.MAC)`. -/
def packetFrom (mac : Bytes) (what : String) : Bytes :=
  ascii "packet from " ++ hardwareAddrString mac ++ ascii what

/-- The `switch` of the option loop in `ParseDHCP`. -/
def parseDHCPOption (ret : DHCPPacket) (typ : UInt8) (val : Bytes) : Except Bytes DHCPPacket :=
  if typ = 53 then
    if val.length ≠ 1 then .error (packetFrom ret.mac " has malformed option 53")
    else if byteAt val 0 ≠ 1 then .error (packetFrom ret.mac " is not a DHCPDISCOVER")
    else .ok ret
  else if typ = 93 then
    if val.length ≠ 2 then .error (packetFrom ret.mac " has malformed option 93")
    else if uint16 val ≠ 0 then
      .error (hardwareAddrString ret.mac ++ ascii " is not an x86 PXE client")
    else .ok ret
  else if typ = 97 then
    if val.length ≠ 17 ∨ byteAt val 0 ≠ 0 then
      .error (packetFrom ret.mac " has malformed option 97")
    else .ok { ret with guid := some (val.drop 1) }
  else .ok ret

/-- `ParseDHCP`. The Ethernet check joins its two tests with `&&`, as the source does. -/
def parseDHCP (b : Bytes) : Except Bytes DHCPPacket :=
  if b.length < 240 then .error (ascii "packet too short")
  else
    let ret : DHCPPacket := { tid := slice b 4 8, mac := slice b 28 34 }
    if byteAt b 0 ≠ 1 then .error (packetFrom ret.mac " is not a BOOTP request")
    else if byteAt b 1 ≠ 1 ∧ byteAt b 2 ≠ 6 then
      .error (packetFrom ret.mac " is not for an Ethernet PHY")
    else if slice b 236 240 ≠ dhcpMagic then
      .error (packetFrom ret.mac " is not a DHCP request")
    else
      match forOptions parseDHCPOption ret (b.drop 240) with
      | .error e => .error e
      | .ok ret =>
        if ret.guid = none then
          .error (hardwareAddrString ret.mac ++ ascii " is not a PXE client")
        else .ok ret

/-! ## Offering -/

/-- The PXE vendor options of an offer, which become the value of option 43. -/
def offerVendorOptions (p : DHCPPacket) : Bytes :=
  -- Discovery Control - disable broadcast and multicast boot server discovery
  [6, 1, 3] ++
  -- PXE boot server
  [8, 7, 0x80, 0x00, 1] ++ p.serverIPBytes ++
  -- PXE boot menu - one entry, pointing to the above PXE boot server
  [9, 12, 0x80, 0x00, 9] ++ ascii "Pixiecore" ++
  -- PXE menu prompt+timeout
  [10, 10, 0] ++ ascii "Pixiecore" ++
  [255]

/-- A zeroed `[236]byte` with the four bytes stored that `OfferDHCP` and `ReplyPXE` both
store: BOOTP reply, PHY = ethernet, hardware address length, please speak broadcast. -/
def bootpReply : Bytes :=
  ((((List.replicate 236 0).set 0 2).set 1 1).set 2 6).set 10 0x80

/-- The fixed length BOOTP response of an offer. -/
def offerBootp (p : DHCPPacket) : Bytes :=
  copyAt (copyAt bootpReply 4 p.tid) 28 p.mac

/-- `OfferDHCP`. -/
def offerDHCP (p : DHCPPacket) : Bytes :=
  let pxe := offerVendorOptions p
  offerBootp p ++ dhcpMagic ++
  -- Type = DHCPOFFER
  [53, 1, 2] ++
  -- Server ID
  [54, 4] ++ p.serverIPBytes ++
  -- Vendor class
  [60, 9] ++ ascii "PXEClient" ++
  -- Client UUID
  [97, 17, 0] ++ p.guidBytes ++
  [43, UInt8.ofNat pxe.length] ++ pxe ++
  [255]

end Pixiecore.Dhcp
