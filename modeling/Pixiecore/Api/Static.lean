import Pixiecore.Api.Booter
import Pixiecore.Misc.Decimal

/-!
# Booting with local files

`staticBooter` of `api/api.go:191-236`. The initrd IDs are made once and live in an array of
their own; `BootSpec` hands out copies.
-/

namespace Pixiecore.Api

/-- A `[]string` that is given from outside, whose length is an `int`. -/
structure Strings where
  list : List Bytes
  fits : list.length < 2 ^ 63

/-- `staticBooter`, with what `fmt` makes of the `%q` verb. -/
structure StaticBooter where
  quote : Bytes → Bytes
  kernelPath : Bytes
  initrdPaths : Strings
  spec : BootSpec

namespace StaticBooter

/-- The IDs of so many initrds. -/
def initrdIDs (n : Nat) : List Bytes := (List.range n).map (fun i : Nat => itoa i)

/-- The constructor `StaticBooter`. The slice of IDs grows by `append` and nothing else refers to
it, so it is made when it is complete. -/
def new (quote : Bytes → Bytes) (kernelPath : Bytes) (initrdPaths : Strings) (cmdline : Bytes) :
    Program StaticBooter := do
  let initrd ← makeSlice (initrdIDs initrdPaths.list.length)
  pure { quote, kernelPath, initrdPaths, spec := { kernel := ascii "kernel", initrd, cmdline } }

variable (b : StaticBooter)

/-- `ShouldBoot`. -/
def shouldBoot (_hw : Bytes) : Program (Except Bytes Unit) := pure (.ok ())

/-- `BootSpec`. -/
def bootSpec (_hw : Bytes) : Program (Except Bytes BootSpec) := do
  let ids ← readElems b.spec.initrd (List.range b.spec.initrd.len)
  let initrd ← makeSlice ids
  pure (.ok { kernel := b.spec.kernel, initrd, cmdline := b.spec.cmdline })

/-- Open a file that is to be logged under the given name. -/
def openAs (path pretty : Bytes) : Program (Except Bytes (Reader × Bytes)) := do
  match ← osOpen path with
  | .error err => pure (.error err)
  | .ok f => pure (.ok (f, pretty))

/-- `b.initrdPaths[i]`, for an index that is in bounds. -/
def initrdPath? (i : Int) : Option Bytes :=
  if 0 ≤ i ∧ i < b.initrdPaths.list.length then b.initrdPaths.list[i.toNat]? else none

/-- `File`. -/
def file (id : Bytes) : Program (Except Bytes (Reader × Bytes)) :=
  if id = ascii "kernel" then openAs b.kernelPath (ascii "kernel")
  else
    match (atoi id).bind b.initrdPath? with
    | some path => openAs path (ascii "initrd." ++ id)
    | none => pure (.error (ascii "no file with ID " ++ b.quote id))

/-- `staticBooter` as a `Booter`. -/
def booter : Booter where
  shouldBoot := shouldBoot
  bootSpec := b.bootSpec
  file := b.file

end StaticBooter

end Pixiecore.Api
