import Pixiecore.Tftp.Process
import Pixiecore.Tftp.Proofs.ErrorLoop

/-!
# How much the TFTP server sends

Anyone can send a request with the address of someone else as its source. What the server
then sends there is bounded: over a whole run, whatever arrives and in which order, no
address is sent more than five datagrams for each one that came from it.
-/

namespace Pixiecore.Tftp

open Machine

/-- The datagram was sent to the given address. -/
def Wire.isTo (a : Bytes) : Wire → Bool
  | .sent d => d.dst = a
  | .received _ => false

/-- The datagram came from the given address. -/
def Wire.isFrom (a : Bytes) : Wire → Bool
  | .received d => d.src = a
  | .sent _ => false

/-- The retransmissions that a transfer may still send to the given address. -/
def owed (a : Bytes) (t : Transfer) : Nat := if t.peer = a then budget t.state else 0

/-- The retransmissions that all the transfers may still send there. -/
def debt (a : Bytes) (p : Process) : Nat := (p.transfers.map (owed a)).sum

section Account

variable (a : Bytes)

/-- One for a datagram sent to the address. -/
def cost (w : Wire) : Nat := (w.isTo a).toNat

/-- Five for a datagram received from it. -/
def gain (w : Wire) : Nat := 5 * (w.isFrom a).toNat

theorem sum_cost (ws : List Wire) : (ws.map (cost a)).sum = ws.countP (Wire.isTo a) := by
  induction ws with
  | nil => rfl
  | cons w ws ih =>
    rw [List.map_cons, List.sum_cons, ih, List.countP_cons, cost]
    cases w.isTo a <;> simp [Nat.add_comm]

theorem sum_gain (ws : List Wire) : (ws.map (gain a)).sum = 5 * ws.countP (Wire.isFrom a) := by
  induction ws with
  | nil => rfl
  | cons w ws ih =>
    rw [List.map_cons, List.sum_cons, ih, List.countP_cons, gain]
    cases w.isFrom a <;> simp [Nat.mul_add, Nat.add_comm]

theorem sum_cost_sends (t : Transfer) (ws : List Bytes) :
    (((t.sends ws).map Wire.sent).map (cost a)).sum = if t.peer = a then ws.length else 0 := by
  rw [sum_cost, Transfer.sends, List.map_map, List.countP_map]
  split
  · rename_i same
    exact List.countP_eq_length.mpr (fun _ _ => by simpa [Wire.isTo] using same)
  · rename_i other
    exact List.countP_eq_zero.mpr (fun _ _ => by simpa [Wire.isTo] using other)

theorem sum_gain_sends (t : Transfer) (ws : List Bytes) :
    (((t.sends ws).map Wire.sent).map (gain a)).sum = 0 := by
  rw [sum_gain, Transfer.sends, List.map_map, List.countP_map]
  exact congrArg (5 * ·) (List.countP_eq_zero.mpr (fun _ _ => by simp [Wire.isFrom]))

theorem worth_le_gain (t : Transfer) (o : ReadOutcome) (mine : t.peer = a) :
    worth o ≤ ((t.heard o).map (gain a)).sum := by
  cases o with
  | datagram d =>
    simp only [worth, Transfer.heard, List.map_singleton, List.sum_singleton, gain, Wire.isFrom,
      decide_eq_true mine]
    split <;> simp
  | timeout => exact Nat.le_refl 0
  | failed text => exact Nat.le_refl 0

theorem sum_cost_heard (t : Transfer) (o : ReadOutcome) : ((t.heard o).map (cost a)).sum = 0 := by
  cases o <;> rfl

/-- The account of one wake-up. -/
theorem wake_pays (site : Site) (here : Bytes) (p : Process) (w : Wake) :
    debt a (p.wake site here w).1 + ((p.wake site here w).2.map (cost a)).sum ≤
      debt a p + ((p.wake site here w).2.map (gain a)).sum := by
  have woken := p.wake_woken site here w
  unfold debt
  generalize (p.wake site here w).1.transfers = ts, (p.wake site here w).2 = trace at woken
  cases woken with
  | failed => exact Nat.le_refl _
  | nobody => exact Nat.le_refl _
  | rejected addr data sock dial err =>
    simp only [List.map_cons, List.map_nil, List.sum_cons, List.sum_nil, cost, gain, Wire.isTo,
      Wire.isFrom, Bool.toNat_false]
    omega
  | accepted addr data sock dial req t ws parsed started =>
    obtain ⟨_, few, _⟩ := started_spec started
    simp only [List.map_cons, List.sum_cons, List.map_append, List.sum_append, List.map_nil,
      List.sum_nil, sum_cost_sends, sum_gain_sends, owed, (ends_started started).2, cost, gain,
      Wire.isTo, Wire.isFrom, Bool.toNat_false]
    by_cases mine : addr = a
    · simp only [if_pos mine, decide_eq_true mine, Bool.toNat_true]
      omega
    · simp only [if_neg mine, decide_eq_false mine, Bool.toNat_false]
      omega
  | resumed i o t t' ws found resumed =>
    obtain ⟨_, few, _⟩ := resumed_spec resumed
    have swapped := sum_map_set (owed a) found t'
    simp only [List.map_append, List.sum_append, sum_cost_sends, sum_gain_sends, sum_cost_heard,
      owed, (ends_resumed resumed).2] at swapped ⊢
    by_cases mine : t.peer = a
    · have paid := worth_le_gain a t o mine
      simp only [if_pos mine] at swapped ⊢
      omega
    · simp only [if_neg mine] at swapped ⊢
      omega

end Account

/-- Whatever reads return in the server, and in which order, no address is sent more than five
datagrams for each datagram that came from it; an address nothing came from is sent nothing. -/
theorem serve_sends_at_most_five (site : Site) (here a : Bytes) (wakes : List Wake) :
    (Process.serve site here wakes).2.countP (Wire.isTo a) ≤
      5 * (Process.serve site here wakes).2.countP (Wire.isFrom a) := by
  have account := feed_account (wake_pays a site here) Process.start wakes
  rw [sum_cost, sum_gain] at account
  have nothing : debt a Process.start = 0 := rfl
  unfold Process.serve
  omega

end Pixiecore.Tftp
