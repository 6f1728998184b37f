import Pixiecore.Dhcp.Packet
import Pixiecore.Http.Proofs.Config
import Pixiecore.Misc.Dialogue
import Pixiecore.Tftp.Proofs.Grammar

/-!
# A reference machine

The other side of a boot, as the README's timeline tells it: a PXE ROM, and then PXELINUX. Neither
is part of the repository. The ROM broadcasts a DHCPDISCOVER, reads the boot menu in the offer, asks
the boot server of the first entry for a boot file and loads that with TFTP. PXELINUX fetches its
configuration from below the path prefix it was given, trying the machine's UUID before its
hardware address, and then the kernel and the initrds. At each step the machine believes only
what is addressed to it and says what it should; otherwise the boot fails.
-/

namespace Pixiecore

open Dhcp Http

/-! ## What it asks for -/

/-- What the machine does on the network. -/
inductive Call where
  /-- A broadcast to port 67. -/
  | dhcp (d : Bytes)
  /-- A datagram to port 4011. -/
  | pxe (dst : IPv4) (d : Bytes)
  /-- A read request to port 69, and the transfer that follows. -/
  | tftp (dst : IPv4) (d : Bytes)
  | http (url : Bytes)

/-- What it gets back, if anything. -/
abbrev Back : Call → Type
  | .dhcp _ => Option Bytes
  | .pxe _ _ => Option Bytes
  | .tftp _ _ => Option Bytes
  | .http _ => Option Response

structure Machine where
  tid : Bytes
  mac : Bytes
  guid : Bytes
  ip : IPv4
  /-- Whatever else its ROM puts into a packet. -/
  others : List (Tlv 255)
  /-- The options of its read requests. -/
  tftpOptions : List (Bytes × Bytes)
  tid_size : tid.length = 4
  mac_size : mac.length = 6
  guid_size : guid.length = 16
  others_plain : ∀ o ∈ others, o.typ ≠ 43 ∧ o.typ ≠ 53 ∧ o.typ ≠ 93 ∧ o.typ ≠ 97
  others_fit : (Tlv.encodeAll others).length ≤ 512
  tftpOptions_plain : Tftp.NulFree tftpOptions
  tftpOptions_readable : ∀ o ∈ tftpOptions, Tftp.Readable o
  tftpOptions_fit : (Tftp.encodeOptions tftpOptions).length ≤ 256

/-- What is running in the end. -/
structure Booted where
  loader : Bytes
  ldlinux : Bytes
  kernel : Bytes
  initrd : List Bytes
  cmdline : Bytes
  deriving DecidableEq, Repr

namespace Machine

variable (m : Machine)

/-! ## The ROM -/

/-- The fixed part of a BOOTP request from the address `ciaddr`. -/
def bootp (ciaddr : Bytes) : Bytes :=
  [1, 1, 6, 0] ++ (m.tid ++ ([0, 0, 0, 0] ++ (ciaddr ++ (List.replicate 12 0 ++ (m.mac ++
    List.replicate 202 0)))))

/-- A request with the given options. -/
def packet (ciaddr : Bytes) (opts : List (Tlv 255)) : Bytes :=
  m.bootp ciaddr ++ (dhcpMagic ++ (Tlv.encodeAll opts ++ [255]))

/-- The machine's UUID. -/
def guidOption : Tlv 255 :=
  ⟨97, 0 :: m.guid, by decide, by rw [List.length_cons, m.guid_size]; decide⟩

/-- A DHCPDISCOVER of an x86 machine. -/
def discoverOptions : List (Tlv 255) :=
  ⟨53, [1], by decide, by decide⟩ :: ⟨93, [0, 0], by decide, by decide⟩ :: m.guidOption :: m.others

/-- The broadcast that a boot starts with, from a machine without an address. -/
def discover : Bytes := m.packet [0, 0, 0, 0] m.discoverOptions

/-- The packet is a reply for this machine, with these values of its options 53, 60 and 97. -/
def isForMe (typ : UInt8) (r : Bytes) : Bool :=
  byteAt r 0 = 2 ∧ slice r 4 8 = m.tid ∧ slice r 28 34 = m.mac ∧ slice r 236 240 = dhcpMagic ∧
    lastOption 53 (options (r.drop 240)).1 = some [typ] ∧
    lastOption 60 (options (r.drop 240)).1 = some (ascii "PXEClient") ∧
    lastOption 97 (options (r.drop 240)).1 = some (0 :: m.guid)

/-- The boot server type of the first entry of a boot menu. -/
def firstEntry : Bytes → Option (UInt8 × UInt8)
  | hi :: lo :: _ => some (hi, lo)
  | _ => none

/-- The first address in the list of boot servers of a type. -/
def bootServer (typ : UInt8 × UInt8) : Bytes → Option IPv4
  | hi :: lo :: count :: rest =>
    if (hi, lo) = typ then (if 1 ≤ count then to4 (rest.take 4) else none)
    else bootServer typ (rest.drop (4 * count.toNat))
  | _ => none
termination_by b => b.length
decreasing_by simp only [List.length_cons, List.length_drop]; omega

/-- What an offer says to boot: only boot servers from the list may be used, and the first entry of
the menu is taken without waiting. -/
def readOffer (r : Bytes) : Option ((UInt8 × UInt8) × IPv4) :=
  if m.isForMe 2 r then do
    let vendor ← lastOption 43 (options (r.drop 240)).1
    let control ← lastOption 6 (options vendor).1
    let prompt ← lastOption 10 (options vendor).1
    if control = [3] ∧ prompt.head? = some 0 then do
      let menu ← lastOption 9 (options vendor).1
      let servers ← lastOption 8 (options vendor).1
      let typ ← firstEntry menu
      let server ← bootServer typ servers
      some (typ, server)
    else none
  else none

/-- The choice of a menu entry, with layer 0. -/
def choice (typ : UInt8 × UInt8) : Bytes := [typ.1, typ.2, 0, 0]

/-- A DHCPREQUEST for a menu entry. -/
def requestOptions (typ : UInt8 × UInt8) : List (Tlv 255) :=
  ⟨53, [3], by decide, by decide⟩ :: m.guidOption ::
    ⟨43, 71 :: 4 :: (choice typ ++ [255]), by decide, by simp [choice]⟩ :: m.others

/-- The request to the boot server. -/
def request (typ : UInt8 × UInt8) : Bytes := m.packet m.ip.bytes (m.requestOptions typ)

/-- Where to go on from: the server to load from, the name of the boot file, and the path prefix
that PXELINUX is told to use. -/
def readAck (typ : UInt8 × UInt8) (r : Bytes) : Option (IPv4 × Bytes × Bytes) :=
  if m.isForMe 5 r ∧ slice r 16 20 = m.ip.bytes then do
    let vendor ← lastOption 43 (options (r.drop 240)).1
    let mirrored ← lastOption 71 (options vendor).1
    if mirrored = choice typ then do
      let next ← to4 (slice r 20 24)
      let pathPrefix ← lastOption 210 (options (r.drop 240)).1
      some (next, (slice r 108 236).takeWhile (· != 0), pathPrefix)
    else none
  else none

/-! ## PXELINUX -/

/-- A file from below the path prefix. -/
def fetch (pathPrefix name : Bytes) : Prog Call Back (Option Bytes) := do
  match ← Prog.ask1 (Call.http (pathPrefix ++ name)) with
  | none => pure none
  | some resp => pure (if resp.status = 200 then some resp.body else none)

/-- The first of the files that is there. -/
def fetchFirst (pathPrefix : Bytes) : List Bytes → Prog Call Back (Option Bytes)
  | [] => pure none
  | name :: names => do
    match ← fetch pathPrefix name with
    | none => fetchFirst pathPrefix names
    | some body => pure (some body)

/-- All of the files. -/
def fetchAll (pathPrefix : Bytes) : List Bytes → Prog Call Back (Option (List Bytes))
  | [] => pure (some [])
  | name :: names => do
    match ← fetch pathPrefix name with
    | none => pure none
    | some body =>
      match ← fetchAll pathPrefix names with
      | none => pure none
      | some bodies => pure (some (body :: bodies))

/-- The UUID in its usual notation. -/
def uuidString (guid : Bytes) : Bytes :=
  join (ascii "-") ([slice guid 0 4, slice guid 4 6, slice guid 6 8, slice guid 8 10,
    slice guid 10 16].map (fun part => part.flatMap hexByte))

/-- The names under which PXELINUX looks for a configuration. -/
def configNames : List Bytes :=
  [ascii "pxelinux.cfg/" ++ uuidString m.guid, ascii "pxelinux.cfg/01-" ++ dashed m.mac]

/-- The argument of an APPEND directive: files to load as initrds, and a command line. -/
def readInitrds (arg : Bytes) : Option (List Bytes × Bytes) :=
  match arg.dropWhile (· != 32) with
  | [] => none
  | _ :: cmdline =>
    let names := arg.takeWhile (· != 32)
    some (if names = [] then [] else names.splitOn 44, cmdline)

/-- A configuration with one entry, which boots a kernel: the kernel, the initrds and the command
line. -/
def readMenu (cfg : Bytes) : Option (Bytes × List Bytes × Bytes) :=
  match (directives cfg).dropWhile (fun line => (ascii "SAY ").isPrefixOf line) with
  | [default, label, linux, append] =>
    if default = ascii "DEFAULT linux" ∧ label = ascii "LABEL linux" then do
      let kernel ← linux.dropPrefix? (ascii "LINUX ")
      let arg ← append.dropPrefix? (ascii "APPEND initrd=")
      let (initrd, cmdline) ← readInitrds arg
      some (kernel, initrd, cmdline)
    else none
  | _ => none

/-- PXELINUX, from its start to the start of the kernel. -/
def pxelinux (loader pathPrefix : Bytes) : Prog Call Back (Option Booted) := do
  match ← fetch pathPrefix (ascii "ldlinux.c32") with
  | none => pure none
  | some ldlinux =>
    match (← fetchFirst pathPrefix m.configNames).bind readMenu with
    | none => pure none
    | some (kernelName, initrdNames, cmdline) =>
      match ← fetch pathPrefix kernelName with
      | none => pure none
      | some kernel =>
        match ← fetchAll pathPrefix initrdNames with
        | none => pure none
        | some initrd => pure (some { loader, ldlinux, kernel, initrd, cmdline })

/-- The whole boot. -/
def boot : Prog Call Back (Option Booted) := do
  match (← Prog.ask1 (Call.dhcp m.discover)).bind m.readOffer with
  | none => pure none
  | some (typ, server) =>
    match (← Prog.ask1 (Call.pxe server (m.request typ))).bind (m.readAck typ) with
    | none => pure none
    | some (next, file, pathPrefix) =>
      match ← Prog.ask1 (Call.tftp next (Tftp.encodeRRQ file m.tftpOptions)) with
      | none => pure none
      | some loader => m.pxelinux loader pathPrefix

end Machine

end Pixiecore
