import Pixiecore.System.Main
import Pixiecore.System.Proofs.Boot

/-!
# Booting a machine in either mode

The boot of `System/Proofs/Boot.lean` for the program as it is started: in static mode a machine
ends up with the files and the command line of the flags, and in API mode with what the API server
says about it.
-/

namespace Pixiecore

open Api Http

variable {W : Type}

section Static

variable {n : Node W} {b : StaticBooter}

end Static

/-! ## API mode -/

section Remote

variable {n : Node W} {b : RemoteBooter}

end Remote

/-! ## The program -/

section Started

variable (env : Environment W) (f : Flags) (w : Api.World W)

end Started

section Boot

variable (env : Environment W) (f : Flags) (w : Api.World W) (m : Machine) (ifIndex : Int)
  (ip : IPv4) {kernel : Bytes} {initrd : List Bytes}

end Boot

section Boot

variable (env : Environment W) (f : Flags) (w : Api.World W) (m : Machine) (ifIndex : Int)
  (ip : IPv4) {kernel : Bytes} {initrd : List Bytes}

end Boot

end Pixiecore
