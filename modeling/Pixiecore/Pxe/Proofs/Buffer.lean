import Pixiecore.Dhcp.Proofs.Buffer
import Pixiecore.Pxe.Buffer

/-!
# `ParsePXE` sees the datagram only

As `Dhcp.parseDHCPIn_returns`, with the nested loop over the value of an option 43.
-/

namespace Pixiecore.Pxe

open Dhcp

variable {n : Nat}

theorem bootTypeLoop_step (bootType : Option Bytes) {val pxeVal next : Bytes} {pxeTyp : UInt8}
    (read : dhcpOption val = (pxeTyp, pxeVal, next)) :
    bootTypeLoop bootType val =
      if pxeTyp = 255 then bootType else if pxeTyp = 71 then some pxeVal
      else bootTypeLoop bootType next := by
  rw [bootTypeLoop]
  simp only [read, dite_eq_ite]

theorem bootTypeLoopIn_returns (mem : Memory n) (bootType : Option (View n)) (val : View n) :
    Returns (bootTypeLoopIn mem bootType val)
      (fun r => r.map (View.bytes mem) =
        bootTypeLoop (bootType.map (View.bytes mem)) (val.bytes mem)) := by
  fun_induction bootTypeLoopIn mem bootType val with
  | case1 val stopped => exact absurd stopped (dhcpOptionIn_returns mem val).ne_none
  | case2 val pxeVal next first =>
    rw [bootTypeLoop_step _ (dhcpOption_of_dhcpOptionIn first), if_pos rfl]
    exact returns_some rfl
  | case3 val pxeVal next first more =>
    rw [bootTypeLoop_step _ (dhcpOption_of_dhcpOptionIn first), if_neg more, if_pos rfl]
    exact returns_some rfl
  | case4 val pxeTyp pxeVal next first more other shorter ih =>
    rw [bootTypeLoop_step _ (dhcpOption_of_dhcpOptionIn first), if_neg more, if_neg other]
    exact ih

theorem parsePXEOptionIn_returns (mem : Memory n) (ret : PXEPacketIn n) (typ : UInt8)
    (val : View n) :
    Returns (parsePXEOptionIn mem ret typ val)
      (fun r => r.map (PXEPacketIn.read mem) =
        parsePXEOption (ret.read mem) typ (val.bytes mem)) := by
  rw [parsePXEOptionIn, parsePXEOption, View.length_bytes]
  split
  · apply (bootTypeLoopIn_returns mem ret.bootType val).bind
    intro bootType same
    apply returns_some
    have isBootType : (ret.read mem).bootType = ret.bootType.map (View.bytes mem) := rfl
    rw [isBootType, ← same]
    rfl
  split
  · exact guidOptionIn_returns mem val _ (PXEPacketIn.read mem)
      (fun guid => { ret with guid := some guid })
      (fun guid => { ret.read mem with guid := some guid }) (fun _ => rfl)
  · exact returns_some rfl

/-- `ParsePXE` stays within bounds, and returns what it returns for the bytes it was given. -/
theorem parsePXEIn_returns (mem : Memory n) (b : View n) :
    Returns (parsePXEIn mem b)
      (fun r => r.map (PXEPacketIn.read mem) = parsePXE (b.bytes mem)) := by
  rw [parsePXEIn, parsePXE, View.length_bytes]
  split
  · exact returns_some rfl
  next long =>
  apply (View.sub_returns mem b (by omega) (by omega)).bind
  intro tid isTid
  apply (View.sub_returns mem b (by omega) (by omega)).bind
  intro mac isMac
  apply (View.sub_returns mem b (by omega) (by omega)).bind
  intro clientIP isClientIP
  apply (View.sub_returns mem b (by omega) (by omega)).bind
  intro magic isMagic
  have start : PXEPacketIn.read mem { tid, mac, clientIP } =
    { tid := slice (b.bytes mem) 4 8, mac := slice (b.bytes mem) 28 34,
      clientIP := slice (b.bytes mem) 12 16 } := by
    rw [← isTid, ← isMac, ← isClientIP]
    rfl
  simp only [← start, ← isMagic]
  split
  · exact returns_some rfl
  apply (View.drop_returns mem b (by omega)).bind
  intro opts isOpts
  rw [← isOpts]
  apply (forOptionsIn_returns (PXEPacketIn.read mem) (parsePXEOptionIn_returns mem) _ opts).bind
  intro r did
  rw [← did]
  cases r with
  | error e => exact returns_some rfl
  | ok ret =>
    obtain ⟨⟨tid, mac, _ | guid⟩, clientIP, bootType⟩ := ret
    · exact returns_some rfl
    · cases bootType with
      | none => exact returns_some rfl
      | some bootType => exact returns_some rfl

/-- A round over the buffer does what the round over the datagram does. -/
theorem servePXERoundIn_returns (httpPort : Int64) (w : World) (received : Received)
    (mem : Memory n) :
    Returns (servePXERoundIn httpPort w received mem)
      (fun r => (r.1.bytes, r.2) = servePXERound httpPort w mem.bytes received) := by
  cases received with
  | error text => exact returns_some rfl
  | datagram data ifIndex srcIP srcPort =>
    rw [servePXERoundIn]
    apply (View.take_receive_returns mem data).bind
    intro b front
    apply (parsePXEIn_returns (mem.receive data) b).bind
    intro r parsed
    simp only [servePXERound, readFrom_snd, mem.size]
    rw [← front, ← parsed]
    cases r with
    | error e => exact returns_some rfl
    | ok req =>
      simp only [Except.map]
      cases interfaceIP w.interfaceByIndex ifIndex with
      | error e => exact returns_some rfl
      | ok ip => exact returns_some rfl

end Pixiecore.Pxe
