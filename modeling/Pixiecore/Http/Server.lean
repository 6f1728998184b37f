import Pixiecore.Api.Booter
import Pixiecore.Misc.Base64
import Pixiecore.Misc.Strings

/-!
# The HTTP server

The handlers of `http/http.go`, over any booter. A response is what a handler has written
when it returns; logging is left out, and so is the server's own key, which nothing reads.
-/

namespace Pixiecore.Http

open Api

/-- `bootFromDisk`. -/
def bootFromDisk : Bytes := ascii "\nDEFAULT local\nLABEL local\nLOCALBOOT 0\n"

/-- `limerick`. -/
def limerick : Bytes :=
  ascii "\n\t        There once was a protocol called PXE," ++
  ascii "\n\t        Whose specification was overly tricksy." ++
  ascii "\n\t        A committee refined it," ++
  ascii "\n\t        Into a big Turing tarpit," ++
  ascii "\n\t        And now you're using it to boot your PC.\n"

structure Response where
  status : Nat
  contentType : Bytes
  body : Bytes
  deriving DecidableEq, Repr

/-- `http.Error`. -/
def httpError (text : Bytes) (code : Nat) : Response :=
  ⟨code, ascii "text/plain; charset=utf-8", text ++ ascii "\n"⟩

/-- `httpServer`. -/
structure Server where
  booter : Booter
  ldlinux : Bytes

/-- How a file ID is referred to in a configuration. -/
def fileRef (id : Bytes) : Bytes := ascii "f/" ++ Base64.encode id

/-- The configuration for booting a kernel. -/
def linuxConfig (kernel : Bytes) (initrd : List Bytes) (cmdline : Bytes) : Bytes :=
  ascii "\nSAY " ++ replaceByte limerick 10 (ascii "\nSAY ") ++
  ascii "\nDEFAULT linux\nLABEL linux\nLINUX " ++ kernel ++
  ascii "\nAPPEND initrd=" ++ join (ascii ",") initrd ++ ascii " " ++ cmdline ++ ascii "\n"

/-- The loop that puts references in the place of the initrd IDs, over the given indices. -/
def encodeInitrds (s : Slice) : List Nat → Program Unit
  | [] => pure ()
  | i :: is => do
    let id ← index s i
    setIndex s i (fileRef id)
    encodeInitrds s is

namespace Server

variable (s : Server)

/-- `Ldlinux`. -/
def serveLdlinux : Program Response :=
  pure ⟨200, ascii "application/octet-stream", s.ldlinux⟩

/-- `PxelinuxConfig`, for a machine whose MAC address is known. -/
def configFor (mac : Bytes) : Program Response := do
  match ← s.booter.bootSpec mac with
  | .error _ => pure ⟨200, ascii "text/plain", bootFromDisk⟩
  | .ok spec =>
    encodeInitrds spec.initrd (List.range spec.initrd.len)
    let initrd ← readElems spec.initrd (List.range spec.initrd.len)
    pure ⟨200, ascii "text/plain", linuxConfig (fileRef spec.kernel) initrd spec.cmdline⟩

/-- `PxelinuxConfig`, given `r.URL.Path`. -/
def pxelinuxConfig (path : Bytes) : Program Response :=
  let macStr := base path
  if (ascii "01-").isPrefixOf macStr then
    match parseMAC (macStr.drop 3) with
    | none => pure (httpError (ascii "Malformed MAC address in request") 400)
    | some mac => s.configFor mac
  else pure (httpError (ascii "Missing MAC address in request") 400)

/-- `File`, given `r.URL.Path`. `io.Copy` writes what the reader gives; its error is logged and
nothing else. -/
def file (path : Bytes) : Program Response :=
  match Base64.decode (base path) with
  | none => pure (httpError (ascii "Malformed file ID") 400)
  | some id => do
    match ← s.booter.file id with
    | .error _ => pure (httpError (ascii "Couldn't get byte stream") 500)
    | .ok (f, _) => pure ⟨200, ascii "application/octet-stream", f.content⟩

end Server

/-- A request to one of the handlers. -/
inductive Request where
  | ldlinux
  | pxelinuxConfig (path : Bytes)
  | file (path : Bytes)
  deriving DecidableEq, Repr

/-- The handler that a request goes to. -/
def Server.serve (s : Server) : Request → Program Response
  | .ldlinux => s.serveLdlinux
  | .pxelinuxConfig path => s.pxelinuxConfig path
  | .file path => s.file path

end Pixiecore.Http
