import Pixiecore.Http.Route
import Pixiecore.Misc.Shared
import Pixiecore.Pxe.Serve
import Pixiecore.System.Lookup
import Pixiecore.System.Machine
import Pixiecore.Tftp.Client
import Pixiecore.Tftp.Serve

/-!
# The whole program on a network

What `main` (`pixiecore/pixiecore.go:75-111`) starts: the four servers, on one booter. `Answers`
is what a machine on the network can get back from them. Other machines are served at the same
time, so the receive buffers hold anything, and between any two questions that are asked for this
machine any number may be asked for others. (The rounds of the ProxyDHCP server come one after the
other; nothing below depends on it.) A datagram or a URL for another address or port reaches nobody.
-/

namespace Pixiecore

open Api Http

/-! ## URLs -/

/-- A number from 0 to 255. -/
def readOctet (s : Bytes) : Option UInt8 :=
  (digits? s).bind (fun n => if n < 256 then some (UInt8.ofNat n) else none)

/-- An address in dotted notation. -/
def readDotted (s : Bytes) : Option IPv4 :=
  match (s.splitOn 46).mapM readOctet with
  | some [a, b, c, d] => some ⟨a, b, c, d⟩
  | _ => none

/-- The address, the port and the path of an HTTP URL. -/
def readURL (url : Bytes) : Option (IPv4 × Int × Bytes) := do
  let rest ← url.dropPrefix? (ascii "http://")
  let authority := rest.takeWhile (· != slash)
  let ip ← readDotted (authority.takeWhile (· != 58))
  let port ← atoi ((authority.dropWhile (· != 58)).drop 1)
  some (ip, port, rest.dropWhile (· != slash))

/-! ## The process -/

/-- The servers, started on a booter in the given world. -/
structure Node (W : Type) where
  out : Outside W
  box : Secretbox
  key : Key
  booter : Booter
  httpPort : Int64
  pxelinux : Bytes
  ldlinux : Bytes
  interfaceByIndex : Int → Except Bytes Dhcp.Interface
  world : World W

/-- What the servers use the booter for. -/
inductive Work where
  | dhcp (buf : Bytes) (received : Dhcp.Received)
  | http (path : Bytes)

/-- What comes of it. -/
inductive Done where
  | dhcp (reply : Option Dhcp.Reply)
  | http (served : Served)

namespace Node

variable {W : Type} (n : Node W)

def work : Work → Program Done
  | .dhcp buf received => do
    let round ← Dhcp.serveProxyDHCPWith n.booter n.interfaceByIndex buf received
    pure (.dhcp round.2)
  | .http path => do
    let served ← (Server.mk n.booter n.ldlinux).serveHTTP path
    pure (.http served)

/-- This may come of the work, with any other work going on at the same time. -/
def Does (work : Work) (done : Done) : Prop :=
  ∃ (s : Shared Work Question Answer Done (World W)) (t : Nat),
    Relation.ReflTransGen (Shared.Step (answer n.out n.box n.key) n.work)
      (Shared.empty n.world) s ∧
    s.started[t]? = some work ∧ s.threads[t]? = some (.ret done)

variable (ifIndex : Int)

/-- The address that the servers go by on a network. -/
def isHere (dst : IPv4) : Prop := Dhcp.interfaceIP n.interfaceByIndex ifIndex = .ok dst

/-- The machine's port. -/
def clientPort : UInt16 := 68

/-- A reply that goes to the machine's network, to its port, and to the given address. -/
def heard (dst : IPv4) (reply : Option Dhcp.Reply) : Option Bytes :=
  reply.bind (fun r =>
    if r.ifIndex = ifIndex ∧ r.dstIP = dst ∧ r.dstPort = clientPort then some r.data else none)

/-- What comes back for a broadcast. -/
def AnswersDHCP (d : Bytes) (x : Option Bytes) : Prop :=
  ∃ (buf : Bytes) (reply : Option Dhcp.Reply), buf.length = 1024 ∧
    n.Does (.dhcp buf (.datagram d ifIndex ⟨0, 0, 0, 0⟩ clientPort)) (.dhcp reply) ∧
    x = heard ifIndex ⟨255, 255, 255, 255⟩ reply

/-- What comes back from port 4011, for a machine at `src`. -/
def AnswersPXE (src dst : IPv4) (d : Bytes) (x : Option Bytes) : Prop :=
  (n.isHere ifIndex dst ∧ ∃ (buf : Bytes) (shouldBoot : Bytes → Except Bytes Unit),
    buf.length = 1024 ∧
    x = heard ifIndex src (Pxe.servePXERound n.httpPort ⟨shouldBoot, n.interfaceByIndex⟩ buf
      (.datagram d ifIndex src clientPort)).2) ∨
  (¬ n.isHere ifIndex dst ∧ x = none)

/-- What comes back for a read request: the file, when a transfer over any network has come to its
good end. -/
def AnswersTFTP (src dst : IPv4) (d : Bytes) (x : Option Bytes) : Prop :=
  (n.isHere ifIndex dst ∧
    match Tftp.parseRRQ (ipString src.bytes) (d.take Tftp.bufSize) with
    | .error _ => x = none
    | .ok req => ∃ net : Tftp.Net req,
        Relation.ReflTransGen Tftp.Net.Step
          (Tftp.Net.start req (ipString src.bytes) (Tftp.blob n.pxelinux)) net ∧
        net.server = .returned .sent ∧ x = some net.client.accepted) ∨
  (¬ n.isHere ifIndex dst ∧ x = none)

/-- The response, unless it is a redirect. -/
def response : Served → Option Response
  | .redirect _ => none
  | .response r => some r

/-- What comes back for a URL. -/
def AnswersHTTP (url : Bytes) (x : Option Response) : Prop :=
  match readURL url with
  | none => x = none
  | some (dst, port, path) =>
    (n.isHere ifIndex dst ∧ port = n.httpPort.toInt ∧
      ∃ served, n.Does (.http path) (.http served) ∧ x = response served) ∨
    (¬ (n.isHere ifIndex dst ∧ port = n.httpPort.toInt) ∧ x = none)

/-- What a machine at `src` can get back. -/
def Answers (src : IPv4) : (q : Call) → Back q → Prop
  | .dhcp d, x => n.AnswersDHCP ifIndex d x
  | .pxe dst d, x => n.AnswersPXE ifIndex src dst d x
  | .tftp dst d, x => n.AnswersTFTP ifIndex src dst d x
  | .http url, x => n.AnswersHTTP ifIndex url x

end Node

end Pixiecore
