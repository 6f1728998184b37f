import Pixiecore.Api.Buffer
import Pixiecore.Pxe.Proofs.Buffer
import Pixiecore.Tftp.Proofs.Buffer

/-!
# No input stops the process

One index or slice out of bounds, in any of the four servers, would take all of them down. The
parsers of what comes from the network return whatever they are given: here over any slice of
any array, and so over any bytes.
-/

namespace Pixiecore

variable {n : Nat}

/-- `DhcpOption` returns, and leaves less than it was given unless it reports the end. -/
theorem Dhcp.dhcpOptionIn_progress (mem : Memory n) (b : View n) :
    Returns (Dhcp.dhcpOptionIn mem b) (fun r =>
      (r.1, r.2.1.bytes mem, r.2.2.bytes mem) = Dhcp.dhcpOption (b.bytes mem) ∧
      (r.1 ≠ 255 → r.2.2.len < b.len)) := by
  obtain ⟨⟨typ, val, next⟩, read, same⟩ := Dhcp.dhcpOptionIn_returns mem b
  exact ⟨(typ, val, next), read, same, Dhcp.dhcpOptionIn_shortens read⟩

/-- `nullStr` returns, and leaves less than it was given if there is a string. -/
theorem Tftp.nullStrIn_progress (mem : Memory n) (b : View n) :
    Returns (Tftp.nullStrIn mem b) (fun r =>
      r.map (fun s => (s.1, s.2.bytes mem)) = Tftp.nullStr (b.bytes mem) ∧
      ∀ str remaining, r = some (str, remaining) → remaining.len < b.len) := by
  obtain ⟨r, read, same⟩ := Tftp.nullStrIn_returns mem b
  refine ⟨r, read, same, ?_⟩
  rintro str remaining rfl
  exact Tftp.nullStrIn_shortens read

/-- No index or slice in a parser is out of bounds, and what remains to be parsed shrinks with
every option and every string: each parser returns, namely what it returns for the bytes of the
slice, and so does what `sendPacket` does with a datagram. -/
theorem parsers_return (mem : Memory n) (b : View n) (addr : Bytes) (seq : UInt16)
    (w : Tftp.Waiting) (d : Bytes) :
    Returns (Dhcp.dhcpOptionIn mem b) (fun r =>
      (r.1, r.2.1.bytes mem, r.2.2.bytes mem) = Dhcp.dhcpOption (b.bytes mem) ∧
      (r.1 ≠ 255 → r.2.2.len < b.len)) ∧
    Returns (Dhcp.parseDHCPIn mem b) (fun r =>
      r.map (Dhcp.PacketIn.read mem) = Dhcp.parseDHCP (b.bytes mem)) ∧
    Returns (Pxe.parsePXEIn mem b) (fun r =>
      r.map (Pxe.PXEPacketIn.read mem) = Pxe.parsePXE (b.bytes mem)) ∧
    Returns (Tftp.nullStrIn mem b) (fun r =>
      r.map (fun s => (s.1, s.2.bytes mem)) = Tftp.nullStr (b.bytes mem) ∧
      ∀ str remaining, r = some (str, remaining) → remaining.len < b.len) ∧
    Returns (Tftp.parseRRQIn mem addr b) (fun r => r = Tftp.parseRRQ addr (b.bytes mem)) ∧
    Returns (Api.RemoteBooter.getURLIn mem b) (fun program =>
      program = Api.RemoteBooter.getURL (b.bytes mem)) ∧
    Returns (Tftp.sendPacketReadIn seq w d) (fun step =>
      step = Tftp.sendPacketRead seq w (.datagram d)) :=
  ⟨Dhcp.dhcpOptionIn_progress mem b, Dhcp.parseDHCPIn_returns mem b, Pxe.parsePXEIn_returns mem b,
    Tftp.nullStrIn_progress mem b, Tftp.parseRRQIn_returns mem addr b,
    Api.RemoteBooter.getURLIn_returns mem b, Tftp.sendPacketReadIn_returns seq w d⟩

end Pixiecore
