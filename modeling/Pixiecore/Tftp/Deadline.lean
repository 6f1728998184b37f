import Pixiecore.Tftp.Transfer

/-!
# Transfers in time

`sendPacket` sets the read deadline once in each try, right after the write
(`tftp/tftp.go:146-147`), and not again before each read of that try. Here every read has a
time at which it returns. A transfer thus becomes a machine with a clock.
-/

namespace Pixiecore.Tftp

/-- `time.Second`, in nanoseconds. -/
def second : Nat := 1000000000

/-- Where a transfer rests, since when, and the deadline of its socket. -/
structure Clock (bsize : Nat) where
  state : State bsize
  now : Nat
  deadline : Nat
  deriving DecidableEq, Repr

/-- A read that returns: with what, when, and when the code has arrived at its next read or
its end. -/
structure Tick where
  outcome : ReadOutcome
  back : Nat
  next : Nat
  deriving DecidableEq, Repr

/-- The transfer has not returned. -/
def State.running {bsize : Nat} : State bsize → Bool
  | .sending _ _ => true
  | .returned _ => false

section Clock

variable (req : Rrq)

/-- A transfer that has written its first packet at time `t`. -/
def Clock.start (addr : Bytes) (handler : Handler) (t : Nat) : Clock req.bsize :=
  ⟨(transferStart req (.ok ()) addr handler).1, t, t + second⟩

/-- From one read to the next. The deadline moves only if a packet was written. -/
def Clock.tick (c : Clock req.bsize) (t : Tick) : Clock req.bsize :=
  let (state, ws) := resume req c.state t.outcome
  ⟨state, t.next, if ws = [] then c.deadline else t.next + second⟩

/-- The clock after some reads. -/
def Clock.ticks (c : Clock req.bsize) (ts : List Tick) : Clock req.bsize :=
  ts.foldl (Clock.tick req) c

/-- The read is one of a transfer that has not returned, and it comes back after it was begun.
When the deadline has passed, or has passed already when the read is begun, it comes back soon.
The code takes its time to get from there to the next read. All three, and the timer of the
deadline, may be late by `lag`: until then a read may still return a datagram after the deadline,
and what is read later is a timeout. A timeout is not reported before the deadline. -/
structure Punctual (lag : Nat) (c : Clock req.bsize) (t : Tick) : Prop where
  live : c.state.running = true
  begun : c.now ≤ t.back
  prompt : t.back ≤ max c.now c.deadline + lag
  late : c.deadline + lag < c.now → t.outcome = .timeout
  expired : t.outcome = .timeout → c.deadline ≤ t.back
  onward : t.back ≤ t.next
  swift : t.next ≤ t.back + lag

/-- Every read of a run is punctual. -/
def AllPunctual (lag : Nat) : Clock req.bsize → List Tick → Prop
  | _, [] => True
  | c, t :: ts => Punctual req lag c t ∧ AllPunctual lag (c.tick req t) ts

end Clock

end Pixiecore.Tftp
