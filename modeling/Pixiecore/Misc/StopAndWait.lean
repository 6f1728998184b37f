import Mathlib.Data.Set.Insert
import Pixiecore.Misc.Transition

/-!
# Stop-and-wait

A sender that transmits numbered packets one at a time, and a receiver that accepts them
in order. The network is described only by which packets and which acknowledgements have
ever been sent: any of them may arrive at any time, any number of times, or never. Numbers
do not wrap around here.
-/

namespace Pixiecore.StopAndWait

open Relation

/-- The packet being sent, the packet expected, and what has been sent in either direction. -/
@[ext] structure Config where
  cur : Nat
  got : Nat
  data : Set Nat
  acks : Set Nat

/-- Before packet `first`, with nothing sent. -/
def Config.start (first : Nat) : Config := ⟨first, first, ∅, ∅⟩

inductive Step : Config → Config → Prop
  /-- The current packet is sent, for the first time or again. -/
  | transmit (c : Config) : Step c { c with data := insert c.cur c.data }
  /-- An acknowledgement of the current packet arrives. -/
  | advance (c : Config) (acked : c.cur ∈ c.acks) : Step c { c with cur := c.cur + 1 }
  /-- The expected packet arrives. -/
  | accept (c : Config) (arrived : c.got ∈ c.data) :
      Step c { c with got := c.got + 1, acks := insert c.got c.acks }
  /-- An older packet is acknowledged again. -/
  | reack (c : Config) (i : Nat) (older : i < c.got) :
      Step c { c with acks := insert i c.acks }

/-- The sender is never ahead of the receiver, and at most one packet behind it. -/
structure Inv (c : Config) : Prop where
  sent : ∀ i ∈ c.data, i ≤ c.cur
  acked : ∀ i ∈ c.acks, i < c.got
  behind : c.cur ≤ c.got
  ahead : c.got ≤ c.cur + 1

theorem inv_start (first : Nat) : Inv (Config.start first) :=
  ⟨fun _ h => absurd h (Set.notMem_empty _), fun _ h => absurd h (Set.notMem_empty _),
    Nat.le_refl first, Nat.le_succ first⟩

theorem inv_step (c c' : Config) (inv : Inv c) (step : Step c c') : Inv c' := by
  obtain ⟨sent, acked, behind, ahead⟩ := inv
  cases step with
  | transmit =>
    refine ⟨?_, acked, behind, ahead⟩
    rintro i (rfl | old)
    · exact Nat.le_refl _
    · exact sent i old
  | advance arrived =>
    exact ⟨fun i h => Nat.le_succ_of_le (sent i h), acked, acked _ arrived,
      Nat.le_succ_of_le ahead⟩
  | accept arrived =>
    refine ⟨sent, ?_, Nat.le_succ_of_le behind, Nat.succ_le_succ (sent _ arrived)⟩
    rintro i (rfl | old)
    · exact Nat.lt_succ_self _
    · exact Nat.lt_succ_of_lt (acked i old)
  | reack i older =>
    refine ⟨sent, ?_, behind, ahead⟩
    rintro j (rfl | old)
    · exact older
    · exact acked j old

/-- What has been sent can only have been the expected packet or an older one. -/
theorem Inv.le_got {c : Config} (inv : Inv c) {i : Nat} (h : i ∈ c.data) : i ≤ c.got :=
  Nat.le_trans (inv.sent i h) inv.behind

end Pixiecore.StopAndWait
