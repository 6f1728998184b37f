import Pixiecore.Dhcp.Buffer
import Pixiecore.Pxe.Serve

/-!
# The PXE server and its buffer

`ParsePXE` and `ServePXE` over the receive buffer, in the manner of `Dhcp.parseDHCPIn`. The
boot type is a slice of a slice: the value of a sub-option within the value of an option.
-/

namespace Pixiecore.Pxe

open Dhcp

variable {n : Nat}

/-- `PXEPacket` as `ParsePXE` returns it. -/
structure PXEPacketIn (n : Nat) extends PacketIn n where
  clientIP : View n
  bootType : Option (View n) := none

/-- What the packet is when it is looked at. -/
def PXEPacketIn.read (mem : Memory n) (p : PXEPacketIn n) : PXEPacket :=
  { p.toPacketIn.read mem with
    clientIP := p.clientIP.bytes mem, bootType := p.bootType.map (View.bytes mem) }

/-- The inner loop over the value of an option 43. -/
def bootTypeLoopIn (mem : Memory n) (bootType : Option (View n)) (val : View n) :
    Option (Option (View n)) :=
  match h : dhcpOptionIn mem val with
  | none => none
  | some (pxeTyp, pxeVal, next) =>
    if more : pxeTyp = 255 then some bootType
    else if pxeTyp = 71 then some (some pxeVal)
    else
      have := dhcpOptionIn_shortens h more
      bootTypeLoopIn mem bootType next
termination_by val.len

/-- The `switch` of the option loop in `ParsePXE`. -/
def parsePXEOptionIn (mem : Memory n) (ret : PXEPacketIn n) (typ : UInt8) (val : View n) :
    Option (Except Bytes (PXEPacketIn n)) :=
  if typ = 43 then do
    let bootType ← bootTypeLoopIn mem ret.bootType val
    some (.ok { ret with bootType })
  else if typ = 97 then
    if val.len ≠ 17 then
      some (.error (ascii "packet from " ++ (ret.read mem).who ++ ascii " has malformed option 97"))
    else do
      let guidType ← val.index mem 0
      if guidType ≠ 0 then
        some (.error
          (ascii "packet from " ++ (ret.read mem).who ++ ascii " has malformed option 97"))
      else do
        let guid ← val.drop 1
        some (.ok { ret with guid := some guid })
  else some (.ok ret)

/-- `ParsePXE`. -/
def parsePXEIn (mem : Memory n) (b : View n) : Option (Except Bytes (PXEPacketIn n)) :=
  if b.len < 240 then some (.error (ascii "packet too short"))
  else do
    let tid ← b.sub 4 8
    let mac ← b.sub 28 34
    let clientIP ← b.sub 12 16
    let ret : PXEPacketIn n := { tid, mac, clientIP }
    let magic ← b.sub 236 240
    if magic.bytes mem ≠ dhcpMagic then
      some (.error (ascii "packet from " ++ (ret.read mem).who ++ ascii " is not a DHCP request"))
    else do
      let opts ← b.drop 240
      match ← forOptionsIn mem (parsePXEOptionIn mem) ret opts with
      | .error e => some (.error e)
      | .ok ret =>
        if ret.guid.isNone then
          some (.error ((ret.read mem).who ++ ascii " is not a PXE client"))
        else if ret.bootType.isNone then
          some (.error ((ret.read mem).who ++ ascii " hasn't selected a menu option"))
        else some (.ok ret)

/-- One round of the loop in `ServePXE`. -/
def servePXERoundIn (httpPort : Int64) (w : World) (received : Received) (mem : Memory n) :
    Option (Memory n × Option Reply) :=
  match received with
  | .error _ => some (mem, none)
  | .datagram data ifIndex srcIP srcPort => do
    let mem := mem.receive data
    let b ← (View.whole : View n).take (min data.length n)
    match ← parsePXEIn mem b with
    | .error _ => some (mem, none)
    | .ok req =>
      match interfaceIP w.interfaceByIndex ifIndex with
      | .error _ => some (mem, none)
      | .ok ip =>
        some (mem, some { data := replyPXE ((req.read mem).answeredBy ip httpPort), ifIndex,
                          dstIP := srcIP, dstPort := srcPort })

end Pixiecore.Pxe
