import Pixiecore.Tftp.Transfer

/-!
# The TFTP listener

The loop of `Serve` (`tftp/tftp.go:44-63`), one round at a time, and a network of any
number of listeners with the transfers they start. Datagrams carry a source address that
anyone can choose, so a listener's answer may well go to another listener.
-/

namespace Pixiecore.Tftp

/-! ## One listener -/

/-- What `l.ReadFrom` can return. -/
inductive Received where
  | error (text : Bytes)
  | datagram (addr data : Bytes)
  deriving DecidableEq, Repr

/-- What `Serve` does about it: nothing, a datagram back, or a transfer. -/
inductive Answer where
  | nothing
  | writeTo (addr p : Bytes)
  | transfer (addr : Bytes) (req : Rrq)
  deriving DecidableEq, Repr

/-- One round of the loop in `Serve`, with the buffer before and after it. -/
def serveRound (q : Quote) (buf : Bytes) : Received → Bytes × Answer
  | .error _ => (buf, .nothing)
  | .datagram addr data =>
    let (buf, b) := readFrom buf data
    match parseRRQ addr b with
    | .error err => (buf, .writeTo addr (mkError (err.text q)))
    | .ok req => (buf, .transfer addr req)

/-- `buf := make([]byte, 512)`. -/
def bufSize : Nat := 512

/-! ## Many listeners -/

structure Datagram where
  src : Bytes
  dst : Bytes
  data : Bytes
  deriving DecidableEq, Repr

/-- A transfer, on a socket of its own that is connected to the client. -/
structure Transfer where
  sock : Bytes
  peer : Bytes
  req : Rrq
  state : State req.bsize

/-- The datagrams in flight, and the transfers started so far. -/
structure Lan where
  flight : List Datagram
  transfers : List Transfer

/-- The listeners' addresses and what they serve. -/
structure Site where
  listeners : List Bytes
  handler : Bytes → Handler
  quote : Quote

/-- A transfer writes to its peer. -/
def Transfer.sends (t : Transfer) (ws : List Bytes) : List Datagram :=
  ws.map (fun p => ⟨t.sock, t.peer, p⟩)

/-- `transfer` from its beginning to the first read. -/
def Transfer.started (site : Site) (listener sock peer : Bytes) (dial : Except Bytes Unit)
    (req : Rrq) : Transfer × List Bytes :=
  let (state, ws) := transferStart req dial peer (site.handler listener)
  (⟨sock, peer, req, state⟩, ws)

/-- `transfer` from one read to the next. -/
def Transfer.resumed (t : Transfer) (o : ReadOutcome) : Transfer × List Bytes :=
  let (state, ws) := resume t.req t.state o
  (⟨t.sock, t.peer, t.req, state⟩, ws)

/-- One event; it is marked when a listener sends a datagram, which is always an ERROR. A
listener's buffer may hold anything from before, and the socket that a transfer dials is never
a listener's. -/
inductive Lan.Step (site : Site) : Lan → Bool → Lan → Prop
  | idle (lan : Lan) : Step site lan false lan
  | lost (before after : List Datagram) (d : Datagram) (ts : List Transfer) :
      Step site ⟨before ++ d :: after, ts⟩ false ⟨before ++ after, ts⟩
  | answered (before after : List Datagram) (d : Datagram) (ts : List Transfer)
      (buf buf' addr p : Bytes) (here : d.dst ∈ site.listeners) (size : buf.length = bufSize)
      (round : serveRound site.quote buf (.datagram d.src d.data) = (buf', .writeTo addr p)) :
      Step site ⟨before ++ d :: after, ts⟩ true ⟨before ++ after ++ [⟨d.dst, addr, p⟩], ts⟩
  | accepted (before after : List Datagram) (d : Datagram) (ts : List Transfer)
      (buf buf' addr sock : Bytes) (req : Rrq) (dial : Except Bytes Unit) (t : Transfer)
      (ws : List Bytes) (here : d.dst ∈ site.listeners) (size : buf.length = bufSize)
      (round : serveRound site.quote buf (.datagram d.src d.data) = (buf', .transfer addr req))
      (fresh : sock ∉ site.listeners)
      (started : Transfer.started site d.dst sock addr dial req = (t, ws)) :
      Step site ⟨before ++ d :: after, ts⟩ false ⟨before ++ after ++ t.sends ws, ts ++ [t]⟩
  | arrived (before after : List Datagram) (d : Datagram) (ts ts' : List Transfer)
      (t t' : Transfer) (ws : List Bytes) (here : d.dst = t.sock) (connected : d.src = t.peer)
      (resumed : t.resumed (.datagram d.data) = (t', ws)) :
      Step site ⟨before ++ d :: after, ts ++ t :: ts'⟩ false
        ⟨before ++ after ++ t'.sends ws, ts ++ t' :: ts'⟩
  | noDatagram (flight : List Datagram) (ts ts' : List Transfer) (t t' : Transfer)
      (ws : List Bytes) (o : ReadOutcome) (none : ∀ d, o ≠ .datagram d)
      (resumed : t.resumed o = (t', ws)) :
      Step site ⟨flight, ts ++ t :: ts'⟩ false ⟨flight ++ t'.sends ws, ts ++ t' :: ts'⟩

/-! ## The two ends of a transfer -/

theorem ends_started {site : Site} {here sock peer : Bytes} {dial : Except Bytes Unit} {req : Rrq}
    {t : Transfer} {ws : List Bytes}
    (started : Transfer.started site here sock peer dial req = (t, ws)) :
    t.sock = sock ∧ t.peer = peer := by
  unfold Transfer.started at started
  cases started
  exact ⟨rfl, rfl⟩

theorem resumed_eq (t : Transfer) (o : ReadOutcome) :
    t.resumed o = (⟨t.sock, t.peer, t.req, (resume t.req t.state o).1⟩,
      (resume t.req t.state o).2) := rfl

theorem ends_resumed {t t' : Transfer} {o : ReadOutcome} {ws : List Bytes}
    (resumed : t.resumed o = (t', ws)) : t'.sock = t.sock ∧ t'.peer = t.peer := by
  unfold Transfer.resumed at resumed
  cases resumed
  exact ⟨rfl, rfl⟩

/-! ## What a round can do -/

/-- What a listener makes of a datagram. -/
def verdict (d : Datagram) : Except Error Rrq := parseRRQ d.src (d.data.take bufSize)

/-- A listener starts a transfer for a datagram that `parseRRQ` accepts, and answers any other
with an ERROR, whatever its buffer held. -/
theorem serveRound_datagram (q : Quote) {buf : Bytes} (size : buf.length = bufSize)
    (addr data : Bytes) :
    (serveRound q buf (.datagram addr data)).2 =
      match parseRRQ addr (data.take bufSize) with
      | .error err => .writeTo addr (mkError (err.text q))
      | .ok req => .transfer addr req := by
  simp only [serveRound]
  rw [readFrom_snd, size]
  split <;> rfl

theorem parseRRQ_opcode {addr b : Bytes} {req : Rrq} (accepted : parseRRQ addr b = .ok req) :
    uint16 b = 1 := by
  by_contra other
  unfold parseRRQ at accepted
  rw [if_pos other] at accepted
  split at accepted
  · cases accepted
  · cases accepted

theorem verdict_opcode {d : Datagram} {req : Rrq} (accepted : verdict d = .ok req) :
    uint16 d.data = 1 := by
  have opcode := parseRRQ_opcode accepted
  rwa [uint16_take _ _ (by decide)] at opcode

end Pixiecore.Tftp
