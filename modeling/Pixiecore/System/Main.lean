import Pixiecore.Api.Static
import Pixiecore.System.Node

/-!
# `main`

The command `pixiecore` (`pixiecore/pixiecore.go:43-111`): the flags decide which booter there is,
and the four servers are started on it.
-/

namespace Pixiecore

open Api Http

/-- The flags that a boot depends on. The other ports are those that a PXE ROM knows. -/
structure Flags where
  portHTTP : Int64
  apiServer : Bytes
  kernelFile : Bytes
  initrdFile : Bytes
  kernelCmdline : Bytes
  /-- The length of what `strings.Split` makes of the list is an `int`. -/
  initrdFile_fits : (initrdFile.splitOn 44).length < 2 ^ 63

/-- Where the program runs, and the two assets that are compiled into it. -/
structure Environment (W : Type) where
  out : Outside W
  box : Secretbox
  lib : Libs
  readKey : Except Bytes Key
  interfaceByIndex : Int → Except Bytes Dhcp.Interface
  lpxelinux : Bytes
  ldlinux : Bytes

/-- The signing key, which is all zero unless it has been read. -/
def Environment.key {W : Type} (env : Environment W) : Key :=
  match env.readKey with
  | .error _ => zeroKey
  | .ok key => key

/-- The four servers on a booter. -/
def Environment.serve {W : Type} (env : Environment W) (f : Flags) (booter : Booter)
    (world : World W) : Node W where
  out := env.out
  box := env.box
  key := env.key
  booter
  httpPort := f.portHTTP
  pxelinux := env.lpxelinux
  ldlinux := env.ldlinux
  interfaceByIndex := env.interfaceByIndex
  world

end Pixiecore
