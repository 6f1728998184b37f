import Pixiecore.Api.Static
import Pixiecore.Http.Server

/-!
# The HTTP server without memory

What the server of `http/http.go` is for, said without slices: a booter hands out the initrd IDs
as a list, and a handler is a program of its request alone. Nothing in it could carry over from one
request to another, which is what the server with its slices is compared with.
-/

namespace Pixiecore.Http

open Api

/-- A boot spec whose initrds are a list. -/
structure PlainSpec where
  kernel : Bytes
  initrd : List Bytes
  cmdline : Bytes
  deriving DecidableEq, Repr

/-- A booter that returns such specs. -/
structure PlainBooter where
  bootSpec : Bytes → Program (Except Bytes PlainSpec)
  file : Bytes → Program (Except Bytes (Reader × Bytes))

/-- The static booter: every machine gets the same spec, and nothing is asked for it. -/
def PlainBooter.static (b : StaticBooter) : PlainBooter where
  bootSpec _ := pure (.ok ⟨b.spec.kernel, StaticBooter.initrdIDs b.initrdPaths.list.length,
    b.spec.cmdline⟩)
  file := b.file

/-- The booter for an API server: what it answers, signed. -/
def PlainBooter.remote (b : RemoteBooter) : PlainBooter where
  bootSpec hw := do
    match ← b.getSpec hw with
    | .error err => pure (.error err)
    | .ok r =>
      match ← RemoteBooter.signURL r.kernel with
      | .error err => pure (.error err)
      | .ok kernel =>
        match ← RemoteBooter.signURLs r.initrd with
        | .error err => pure (.error err)
        | .ok initrd => pure (.ok ⟨kernel, initrd, r.cmdline⟩)
  file := RemoteBooter.file

structure PlainServer where
  booter : PlainBooter
  ldlinux : Bytes

namespace PlainServer

variable (s : PlainServer)

/-- The configuration for a machine: each ID is referred to. -/
def configFor (mac : Bytes) : Program Response := do
  match ← s.booter.bootSpec mac with
  | .error _ => pure ⟨200, ascii "text/plain", bootFromDisk⟩
  | .ok spec => pure ⟨200, ascii "text/plain",
      linuxConfig (fileRef spec.kernel) (spec.initrd.map fileRef) spec.cmdline⟩

def pxelinuxConfig (path : Bytes) : Program Response :=
  let macStr := base path
  if (ascii "01-").isPrefixOf macStr then
    match parseMAC (macStr.drop 3) with
    | none => pure (httpError (ascii "Malformed MAC address in request") 400)
    | some mac => s.configFor mac
  else pure (httpError (ascii "Missing MAC address in request") 400)

def file (path : Bytes) : Program Response :=
  match Base64.decode (base path) with
  | none => pure (httpError (ascii "Malformed file ID") 400)
  | some id => do
    match ← s.booter.file id with
    | .error _ => pure (httpError (ascii "Couldn't get byte stream") 500)
    | .ok (f, _) => pure ⟨200, ascii "application/octet-stream", f.content⟩

def serve : Request → Program Response
  | .ldlinux => pure ⟨200, ascii "application/octet-stream", s.ldlinux⟩
  | .pxelinuxConfig path => s.pxelinuxConfig path
  | .file path => s.file path

end PlainServer

end Pixiecore.Http
