import Pixiecore.Dhcp.Serve
import Pixiecore.Pxe.Packet

/-!
# The PXE server

`ServePXE` of `pxe/pxe.go:24-66`, in the manner of `Dhcp.serveProxyDHCPRound`. The
booter is not asked, and the reply goes back to where the request came from.
-/

namespace Pixiecore.Pxe

open Dhcp

/-- One round of the loop in `ServePXE`. -/
def servePXERound (httpPort : Int64) (w : World) (buf : Bytes) : Received → Bytes × Option Reply
  | .error _ => (buf, none)
  | .datagram data ifIndex srcIP srcPort =>
    let (buf, req) := readFrom buf data
    match parsePXE req with
    | .error _ => (buf, none)
    | .ok req =>
      match interfaceIP w.interfaceByIndex ifIndex with
      | .error _ => (buf, none)
      | .ok ip =>
        (buf, some { data := replyPXE (req.answeredBy ip httpPort), ifIndex, dstIP := srcIP,
                     dstPort := srcPort })

/-- The server answers only a datagram that `ParsePXE` accepts and the interface has an
address for, and then with the reply to that datagram. -/
theorem servePXERound_reply {httpPort : Int64} {w : World} {buf data : Bytes} {ifIndex : Int}
    {srcIP : IPv4} {srcPort : UInt16} {reply : Reply}
    (h : (servePXERound httpPort w buf (.datagram data ifIndex srcIP srcPort)).2 = some reply) :
    ∃ req ip, parsePXE (data.take buf.length) = .ok req ∧
      interfaceIP w.interfaceByIndex ifIndex = .ok ip ∧
      reply = { data := replyPXE (req.answeredBy ip httpPort), ifIndex, dstIP := srcIP,
                dstPort := srcPort } := by
  simp only [servePXERound] at h
  rw [readFrom_snd] at h
  split at h
  · cases h
  · rename_i req parsed
    split at h
    · cases h
    · rename_i ip found
      exact ⟨req, ip, parsed, found, (Option.some.inj h).symm⟩

end Pixiecore.Pxe
