import Pixiecore.Dhcp.Packet

/-!
# PXE packets

`ParsePXE` and `ReplyPXE` of `pxe/pxe.go:68-168`. The parser checks less than
`ParseDHCP` does ("the clients deserve everything they get"): not the BOOTP
operation, not the hardware type, not the message type.
-/

namespace Pixiecore.Pxe

open Dhcp

/-- `PXEPacket`. `bootType` is nil until a sub-option 71 was seen; an empty value is
not nil. -/
structure PXEPacket extends DHCPPacket where
  clientIP : Bytes
  bootType : Option Bytes := none
  httpServer : Bytes := []
  deriving DecidableEq, Repr

/-- What `b.Write(p.BootType)` appends. -/
def PXEPacket.bootTypeBytes (p : PXEPacket) : Bytes := p.bootType.getD []

/-! ## Parsing -/

/-- `fmt.Sprintf("%s (%s)", ret.MAC, ret.ClientIP)`. -/
def PXEPacket.who (p : PXEPacket) : Bytes :=
  hardwareAddrString p.mac ++ ascii " (" ++ ipString p.clientIP ++ ascii ")"

/-- The inner loop over the value of an option 43: the first sub-option 71 becomes the
boot type, and `break` leaves the loop. -/
def bootTypeLoop (bootType : Option Bytes) (val : Bytes) : Option Bytes :=
  if h : (dhcpOption val).1 = 255 then bootType
  else if (dhcpOption val).1 = 71 then some (dhcpOption val).2.1
  else
    have := dhcpOption_shortens h
    bootTypeLoop bootType (dhcpOption val).2.2
termination_by val.length

/-- The `switch` of the option loop in `ParsePXE`. -/
def parsePXEOption (ret : PXEPacket) (typ : UInt8) (val : Bytes) : Except Bytes PXEPacket :=
  if typ = 43 then .ok { ret with bootType := bootTypeLoop ret.bootType val }
  else if typ = 97 then
    if val.length ≠ 17 ∨ byteAt val 0 ≠ 0 then
      .error (ascii "packet from " ++ ret.who ++ ascii " has malformed option 97")
    else .ok { ret with guid := some (val.drop 1) }
  else .ok ret

/-- `ParsePXE`. -/
def parsePXE (b : Bytes) : Except Bytes PXEPacket :=
  if b.length < 240 then .error (ascii "packet too short")
  else
    let ret : PXEPacket := { tid := slice b 4 8, mac := slice b 28 34, clientIP := slice b 12 16 }
    if slice b 236 240 ≠ dhcpMagic then
      .error (ascii "packet from " ++ ret.who ++ ascii " is not a DHCP request")
    else
      match forOptions parsePXEOption ret (b.drop 240) with
      | .error e => .error e
      | .ok ret =>
        if ret.guid = none then .error (ret.who ++ ascii " is not a PXE client")
        else if ret.bootType = none then
          .error (ret.who ++ ascii " hasn't selected a menu option")
        else .ok ret

/-! ## Replying -/

/-- `fmt.Sprintf("http://%s:%d/", req.ServerIP, httpPort)` of `ServePXE`. -/
def httpServerURL (ip : IPv4) (httpPort : Int64) : Bytes :=
  ascii "http://" ++ ipString ip.bytes ++ ascii ":" ++ itoa httpPort.toInt ++ ascii "/"

/-- The fixed length BOOTP response of a reply. The boot file name is only there to look
nice in packet dumps. -/
def replyBootp (p : PXEPacket) : Bytes :=
  let bootp := copyAt bootpReply 4 p.tid
  let bootp := copyAt bootp 16 p.clientIP
  let bootp := copyAt bootp 20 p.serverIPBytes
  let bootp := copyAt bootp 28 p.mac
  copyAt bootp 108 (ascii "boot")

/-- `ReplyPXE`. -/
def replyPXE (p : PXEPacket) : Bytes :=
  replyBootp p ++ dhcpMagic ++
  -- Type = DHCPACK
  [53, 1, 5] ++
  -- Server ID
  [54, 4] ++ p.serverIPBytes ++
  -- Vendor class
  [60, 9] ++ ascii "PXEClient" ++
  -- Client UUID
  [97, 17, 0] ++ p.guidBytes ++
  -- Mirror the menu selection back at the client
  [43, 7, 71, 4] ++ p.bootTypeBytes ++ [255] ++
  -- Pxelinux path prefix, which makes pxelinux use HTTP for everything
  [210, UInt8.ofNat p.httpServer.length] ++ p.httpServer ++
  -- If boot fails, make pxelinux reboot after 5 seconds to try again
  [211, 4, 0, 0, 0, 5] ++
  [255]

/-- A request with the two fields filled in that `ServePXE` adds before replying. -/
def PXEPacket.answeredBy (p : PXEPacket) (ip : IPv4) (httpPort : Int64) : PXEPacket :=
  { p with serverIP := some ip, httpServer := httpServerURL ip httpPort }

end Pixiecore.Pxe
