import Pixiecore.Dhcp.Buffer
import Pixiecore.Dhcp.Packet

/-!
# The parser sees the datagram only

Over any contents of the buffer, `ParseDHCP` stays within bounds and returns what it returns
for the received bytes alone, and so does a round of `ServeProxyDHCP`.
-/

namespace Pixiecore.Dhcp

variable {n : Nat}

theorem dhcpOptionIn_returns (mem : Memory n) (b : View n) :
    Returns (dhcpOptionIn mem b)
      (fun r => (r.1, r.2.1.bytes mem, r.2.2.bytes mem) = dhcpOption (b.bytes mem)) := by
  have length := View.length_bytes mem b
  rw [dhcpOptionIn]
  split
  · next short =>
    apply returns_some
    rw [View.bytes_nil]
    rcases read : b.bytes mem with _ | ⟨t, _ | ⟨l, rest⟩⟩
    · rfl
    · rfl
    · rw [read, List.length_cons, List.length_cons] at length
      omega
  next long =>
  obtain ⟨t, l, rest, split⟩ : ∃ t l rest, b.bytes mem = t :: l :: rest := by
    rcases read : b.bytes mem with _ | ⟨t, _ | ⟨l, rest⟩⟩
    · rw [read, List.length_nil] at length
      omega
    · rw [read, List.length_singleton] at length
      omega
    · exact ⟨t, l, rest, rfl⟩
  rw [split, List.length_cons, List.length_cons] at length
  rw [split]
  apply (View.index_returns mem b (by omega)).bind
  intro typ isTyp
  rw [split] at isTyp
  have isTyp : typ = t := isTyp
  subst isTyp
  by_cases isEnd : typ = 255
  · rw [if_pos isEnd]
    apply returns_some
    rw [dhcpOption, if_pos isEnd, View.bytes_nil]
  rw [if_neg isEnd]
  apply (View.index_returns mem b (by omega)).bind
  intro l' isLen
  rw [split] at isLen
  have isLen : l' = l := isLen
  subst isLen
  by_cases short : rest.length < l'.toNat
  · rw [if_pos (by omega)]
    apply returns_some
    rw [dhcpOption, if_neg isEnd, if_pos short, View.bytes_nil]
  rw [if_neg (by omega)]
  apply (View.sub_returns mem b (Nat.le_add_right 2 _) (by omega)).bind
  intro val isVal
  apply (View.drop_returns mem b (by omega)).bind
  intro next isNext
  apply returns_some
  rw [isVal, isNext, split, dhcpOption, if_neg isEnd, if_neg short, slice, Nat.add_comm 2,
    Nat.add_sub_cancel]
  rfl

/-- What is read from the buffer is what is read from the bytes. -/
theorem dhcpOption_of_dhcpOptionIn {mem : Memory n} {b val next : View n} {typ : UInt8}
    (read : dhcpOptionIn mem b = some (typ, val, next)) :
    dhcpOption (b.bytes mem) = (typ, val.bytes mem, next.bytes mem) :=
  ((dhcpOptionIn_returns mem b).holds read).symm

section Loop

variable {ε σ τ : Type} {mem : Memory n}

theorem forOptions_step {body : τ → UInt8 → Bytes → Except ε τ} {b val next : Bytes}
    {typ : UInt8} (st : τ) (read : dhcpOption b = (typ, val, next)) (more : typ ≠ 255) :
    forOptions body st b =
      match body st typ val with
      | .error e => .error e
      | .ok st => forOptions body st next := by
  have notEnd : ¬ (dhcpOption b).1 = 255 := by
    rw [read]
    exact more
  rw [forOptions, dif_neg notEnd]
  cases did : body st typ val with
  | error e => simp only [read, did]
  | ok st' => simp only [read, did]

/-- The loop does over the slices of the buffer what it does over their bytes, if its body
does. -/
theorem forOptionsIn_returns {bodyIn : σ → UInt8 → View n → Option (Except ε σ)}
    {body : τ → UInt8 → Bytes → Except ε τ} (read : σ → τ)
    (each : ∀ st typ val, Returns (bodyIn st typ val)
      (fun r => r.map read = body (read st) typ (val.bytes mem)))
    (st : σ) (b : View n) :
    Returns (forOptionsIn mem bodyIn st b)
      (fun r => r.map read = forOptions body (read st) (b.bytes mem)) := by
  fun_induction forOptionsIn mem bodyIn st b with
  | case1 st b stopped => exact absurd stopped (dhcpOptionIn_returns mem b).ne_none
  | case2 st b val next first =>
    have isEnd := congrArg Prod.fst (dhcpOption_of_dhcpOptionIn first)
    rw [forOptions, dif_pos isEnd]
    exact returns_some rfl
  | case3 st b typ val next first more shorter stopped =>
    exact absurd stopped (each st typ val).ne_none
  | case4 st b typ val next first more shorter e did =>
    rw [forOptions_step (read st) (dhcpOption_of_dhcpOptionIn first) more,
      ← (each st typ val).holds did]
    exact returns_some rfl
  | case5 st b typ val next first more shorter st' did ih =>
    rw [forOptions_step (read st) (dhcpOption_of_dhcpOptionIn first) more,
      ← (each st typ val).holds did]
    exact ih

end Loop

/-! ## `ParseDHCP` -/

theorem byteAt_returns (mem : Memory n) (b : View n) {i : Nat} (h : i < b.len) :
    Returns (b.index mem i) (fun x => x = byteAt (b.bytes mem) i) := View.index_returns mem b h

/-- An option 97, of which both parsers store the value without its first byte. -/
theorem guidOptionIn_returns {σ τ : Type} (mem : Memory n) (val : View n) (malformed : Bytes)
    (read : σ → τ) (store : View n → σ) (store' : Bytes → τ)
    (stores : ∀ guid, read (store guid) = store' (guid.bytes mem)) :
    Returns
      (if val.len ≠ 17 then some (.error malformed)
      else do
        let guidType ← val.index mem 0
        if guidType ≠ 0 then some (.error malformed)
        else do
          let guid ← val.drop 1
          some (.ok (store guid)))
      (fun r : Except Bytes σ => r.map read =
        if val.len ≠ 17 ∨ byteAt (val.bytes mem) 0 ≠ 0 then .error malformed
        else .ok (store' ((val.bytes mem).drop 1))) := by
  split
  · next short => exact returns_some (if_pos (.inl short)).symm
  next seventeen =>
  apply (byteAt_returns mem val (by omega)).bind
  intro guidType same
  rw [same]
  split
  · next other => exact returns_some (if_pos (.inr other)).symm
  next zero =>
  apply (View.drop_returns mem val (by omega)).bind
  intro guid isGuid
  apply returns_some
  rw [if_neg (not_or.mpr ⟨seventeen, zero⟩), ← isGuid, ← stores]
  rfl

theorem parseDHCPOptionIn_returns (mem : Memory n) (ret : PacketIn n) (typ : UInt8)
    (val : View n) :
    Returns (parseDHCPOptionIn mem ret typ val)
      (fun r => r.map (PacketIn.read mem) =
        parseDHCPOption (ret.read mem) typ (val.bytes mem)) := by
  rw [parseDHCPOptionIn, parseDHCPOption, View.length_bytes]
  split
  · split
    · exact returns_some rfl
    next one =>
    apply (byteAt_returns mem val (by omega)).bind
    intro messageType same
    rw [same]
    split
    · exact returns_some rfl
    · exact returns_some rfl
  split
  · split
    · exact returns_some rfl
    next two =>
    apply (View.uint16_returns mem val (by omega)).bind
    intro architecture same
    rw [same]
    split
    · exact returns_some rfl
    · exact returns_some rfl
  split
  · exact guidOptionIn_returns mem val _ (PacketIn.read mem)
      (fun guid => { ret with guid := some guid })
      (fun guid => { ret.read mem with guid := some guid }) (fun _ => rfl)
  · exact returns_some rfl

theorem notEthernetIn_returns (mem : Memory n) (b : View n) (long : 240 ≤ b.len) :
    Returns (notEthernetIn mem b)
      (fun x => x = true ↔ byteAt (b.bytes mem) 1 ≠ 1 ∧ byteAt (b.bytes mem) 2 ≠ 6) := by
  apply (byteAt_returns mem b (by omega)).bind
  intro htype isHtype
  split
  · next ethernet => exact returns_some (by simp [← isHtype, ethernet])
  next other =>
  apply (byteAt_returns mem b (by omega)).bind
  intro hlen isHlen
  exact returns_some (by simp [← isHtype, ← isHlen, other])

/-- `ParseDHCP` stays within bounds, and returns what it returns for the bytes it was given. -/
theorem parseDHCPIn_returns (mem : Memory n) (b : View n) :
    Returns (parseDHCPIn mem b)
      (fun r => r.map (PacketIn.read mem) = parseDHCP (b.bytes mem)) := by
  rw [parseDHCPIn, parseDHCP, View.length_bytes]
  split
  · exact returns_some rfl
  next long =>
  apply (View.sub_returns mem b (by omega) (by omega)).bind
  intro tid isTid
  apply (View.sub_returns mem b (by omega) (by omega)).bind
  intro mac isMac
  apply (byteAt_returns mem b (by omega)).bind
  intro op isOp
  rw [isOp, ← isMac, ← isTid]
  split
  · exact returns_some rfl
  apply (notEthernetIn_returns mem b (by omega)).bind
  intro notEthernet phy
  simp only [phy]
  split
  · exact returns_some rfl
  apply (View.sub_returns mem b (by omega) (by omega)).bind
  intro magic isMagic
  rw [← isMagic]
  split
  · exact returns_some rfl
  apply (View.drop_returns mem b (by omega)).bind
  intro opts isOpts
  rw [← isOpts]
  apply (forOptionsIn_returns (PacketIn.read mem) (parseDHCPOptionIn_returns mem)
    { tid, mac } opts).bind
  intro r did
  have start : PacketIn.read mem { tid, mac } =
    { tid := tid.bytes mem, mac := mac.bytes mem } := rfl
  rw [← start, ← did]
  cases r with
  | error e => exact returns_some rfl
  | ok ret =>
    obtain ⟨tid, mac, _ | guid⟩ := ret
    · exact returns_some rfl
    · exact returns_some rfl

/-- A round over the buffer does what the round over the datagram does. -/
theorem serveProxyDHCPRoundIn_returns (w : World) (received : Received) (mem : Memory n) :
    Returns (serveProxyDHCPRoundIn w received mem)
      (fun r => (r.1.bytes, r.2) = serveProxyDHCPRound w mem.bytes received) := by
  cases received with
  | error text => exact returns_some rfl
  | datagram data ifIndex srcIP srcPort =>
    rw [serveProxyDHCPRoundIn]
    apply (View.take_receive_returns mem data).bind
    intro b front
    apply (parseDHCPIn_returns (mem.receive data) b).bind
    intro r parsed
    simp only [serveProxyDHCPRound, readFrom_snd, mem.size]
    rw [← front, ← parsed]
    cases r with
    | error e => exact returns_some rfl
    | ok req =>
      have isMac : (req.read (mem.receive data)).mac = req.mac.bytes (mem.receive data) := rfl
      simp only [Except.map, isMac]
      cases w.shouldBoot (req.mac.bytes (mem.receive data)) with
      | error e => exact returns_some rfl
      | ok _ =>
        cases interfaceIP w.interfaceByIndex ifIndex with
        | error e => exact returns_some rfl
        | ok ip => exact returns_some rfl

end Pixiecore.Dhcp
