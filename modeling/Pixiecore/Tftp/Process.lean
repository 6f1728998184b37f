import Pixiecore.Misc.Machine
import Pixiecore.Tftp.Serve

/-!
# The TFTP server as one process

The goroutine of `Serve` and the goroutines of all the transfers it has started
(`tftp/tftp.go:44-63`, `77-133`). Each of them rests in a read, and the process moves when one
of these reads returns. Which one does, and with what, is up to the network and the
scheduler, so a run of the process is a function of the sequence of these returns.
-/

namespace Pixiecore.Tftp

open Machine

/-- The buffer of `Serve`, and the transfers in the order they were started. -/
structure Process where
  buf : Bytes
  size : buf.length = bufSize
  transfers : List Transfer

/-- A read that returns: the one of `Serve`, or the one of a transfer. Should `Serve` start a
transfer, `sock` is the address that `net.Dial` finds for its socket, and `dial` whether it
succeeds. -/
inductive Wake where
  | listener (r : Received) (sock : Bytes) (dial : Except Bytes Unit)
  | transfer (i : Nat) (o : ReadOutcome)

/-- A datagram that the process has read or written. -/
inductive Wire where
  | received (d : Datagram)
  | sent (d : Datagram)
  deriving DecidableEq, Repr

theorem length_serveRound (q : Quote) (buf : Bytes) (r : Received) :
    (serveRound q buf r).1.length = buf.length := by
  cases r with
  | error text => rfl
  | datagram addr data =>
    simp only [serveRound]
    split
    · exact length_copyAt ..
    · exact length_copyAt ..

/-- The datagram that `conn.Read` has returned to a transfer, if it did. Its socket is connected,
so the datagram comes from the client. -/
def Transfer.heard (t : Transfer) : ReadOutcome → List Wire
  | .datagram d => [.received ⟨t.peer, t.sock, d⟩]
  | _ => []

namespace Process

variable (site : Site) (here : Bytes)

/-- `Serve` as it begins. -/
def start : Process := ⟨List.replicate bufSize 0, List.length_replicate, []⟩

/-- What `l.ReadFrom` leaves in the buffer. -/
def fill (p : Process) (r : Received) : Process :=
  { p with
    buf := (serveRound site.quote p.buf r).1
    size := by rw [length_serveRound, p.size] }

/-- The datagram that `l.ReadFrom` has returned, if it did. -/
def heard : Received → List Wire
  | .error _ => []
  | .datagram addr data => [.received ⟨addr, here, data⟩]

/-- The process from one return to the next. -/
def wake (p : Process) : Wake → Process × List Wire
  | .listener r sock dial =>
    let q := p.fill site r
    match (serveRound site.quote p.buf r).2 with
    | .nothing => (q, heard here r)
    | .writeTo addr b => (q, heard here r ++ [.sent ⟨here, addr, b⟩])
    | .transfer addr req =>
      let (t, ws) := Transfer.started site here sock addr dial req
      ({ q with transfers := q.transfers ++ [t] }, heard here r ++ (t.sends ws).map .sent)
  | .transfer i o =>
    match p.transfers[i]? with
    | none => (p, [])
    | some t =>
      let (t', ws) := t.resumed o
      ({ p with transfers := p.transfers.set i t' }, t.heard o ++ (t'.sends ws).map .sent)

/-- The server that listens at `here`, from its beginning. -/
def serve (wakes : List Wake) : Process × List Wire :=
  feed (wake site here) start wakes

/-- What the process can do when a read returns: nothing, answer a datagram with an ERROR,
start a transfer for it, or let a transfer go on. -/
inductive Woken (p : Process) : Wake → List Transfer → List Wire → Prop
  | failed (text sock : Bytes) (dial : Except Bytes Unit) :
      Woken p (.listener (.error text) sock dial) p.transfers []
  | rejected (addr data sock : Bytes) (dial : Except Bytes Unit) (err : Error)
      (parsed : parseRRQ addr (data.take bufSize) = .error err) :
      Woken p (.listener (.datagram addr data) sock dial) p.transfers
        [.received ⟨addr, here, data⟩, .sent ⟨here, addr, mkError (err.text site.quote)⟩]
  | accepted (addr data sock : Bytes) (dial : Except Bytes Unit) (req : Rrq) (t : Transfer)
      (ws : List Bytes) (parsed : parseRRQ addr (data.take bufSize) = .ok req)
      (started : Transfer.started site here sock addr dial req = (t, ws)) :
      Woken p (.listener (.datagram addr data) sock dial) (p.transfers ++ [t])
        (.received ⟨addr, here, data⟩ :: (t.sends ws).map .sent)
  | nobody (i : Nat) (o : ReadOutcome) (none : p.transfers[i]? = none) :
      Woken p (.transfer i o) p.transfers []
  | resumed (i : Nat) (o : ReadOutcome) (t t' : Transfer) (ws : List Bytes)
      (found : p.transfers[i]? = some t) (resumed : t.resumed o = (t', ws)) :
      Woken p (.transfer i o) (p.transfers.set i t') (t.heard o ++ (t'.sends ws).map .sent)

theorem wake_woken (p : Process) (w : Wake) :
    Woken site here p w (p.wake site here w).1.transfers (p.wake site here w).2 := by
  cases w with
  | listener r sock dial =>
    cases r with
    | error text => exact Woken.failed text sock dial
    | datagram addr data =>
      have answer := serveRound_datagram site.quote p.size addr data
      rcases parsed : parseRRQ addr (data.take bufSize) with err | req
      · rw [parsed] at answer
        simp only [wake, answer]
        exact Woken.rejected addr data sock dial err parsed
      · rw [parsed] at answer
        simp only [wake, answer]
        exact Woken.accepted addr data sock dial req _ _ parsed rfl
  | transfer i o =>
    rcases found : p.transfers[i]? with _ | t
    · simp only [wake, found]
      exact Woken.nobody i o found
    · simp only [wake, found]
      exact Woken.resumed i o t _ _ found rfl

end Process

end Pixiecore.Tftp
