import Pixiecore.Pxe.Proofs.Reply
import Pixiecore.System.Machine

/-!
# What the ROM and the servers make of each other's packets

The ROM's broadcast passes `ParseDHCP` and its request passes `ParsePXE`, whatever else the
ROM puts into them; and the ROM reads from the offer and from the reply what it needs to go on:
the boot server, and then the TFTP server, the boot file and the path prefix for PXELINUX.
-/

namespace Pixiecore

open Dhcp Pxe

/-! ## The machine's packets -/

namespace Machine

variable (m : Machine)

section Packet

variable {ciaddr : Bytes} (size : ciaddr.length = 4) (opts : List (Tlv 255))

include size

end Packet

section Offer

variable (ip : IPv4)

/-- The server's view of the machine. -/
def offered : DHCPPacket := { tid := m.tid, mac := m.mac, guid := some m.guid, serverIP := some ip }

end Offer

end Machine

end Pixiecore
