import Mathlib.Algebra.BigOperators.Group.List.Basic
import Mathlib.Algebra.GroupWithZero.Nat

/-!
# Machines driven from outside

A machine takes one input at a time and puts out some things for each. Two rules carry over
from one input to any number: an invariant, and an account in which what is put out is
paid for by a potential and by what is taken in.
-/

namespace Pixiecore.Machine

variable {σ ι ο : Type*}

/-- The machine on a sequence of inputs. -/
def feed (step : σ → ι → σ × List ο) (s : σ) : List ι → σ × List ο
  | [] => (s, [])
  | i :: is =>
    let (s, out) := step s i
    let (s, rest) := feed step s is
    (s, out ++ rest)

section Rules

variable {step : σ → ι → σ × List ο}

theorem feed_cons (s : σ) (i : ι) (is : List ι) :
    feed step s (i :: is) = ((feed step (step s i).1 is).1,
      (step s i).2 ++ (feed step (step s i).1 is).2) := rfl

/-- If every step pays for its costs with its potential and its gains, so does a whole run. -/
theorem feed_account {potential : σ → Nat} {cost gain : ο → Nat}
    (pays : ∀ s i, potential (step s i).1 + ((step s i).2.map cost).sum ≤
      potential s + ((step s i).2.map gain).sum) (s : σ) (is : List ι) :
    potential (feed step s is).1 + ((feed step s is).2.map cost).sum ≤
      potential s + ((feed step s is).2.map gain).sum := by
  induction is generalizing s with
  | nil => exact Nat.le_refl _
  | cons i is ih =>
    have here := pays s i
    have rest := ih (step s i).1
    simp only [feed_cons, List.map_append, List.sum_append]
    omega

end Rules

/-- What a sum gains and loses when one element is replaced. -/
theorem sum_map_set {α : Type*} (f : α → Nat) {l : List α} {i : Nat} {a : α}
    (here : l[i]? = some a) (b : α) :
    ((l.set i b).map f).sum + f a = (l.map f).sum + f b := by
  induction l generalizing i with
  | nil => cases here
  | cons x l ih =>
    cases i with
    | zero =>
      cases here
      simp only [List.set_cons_zero, List.map_cons, List.sum_cons]
      omega
    | succ i =>
      have rest := ih (i := i) here
      simp only [List.set_cons_succ, List.map_cons, List.sum_cons]
      omega

/-- Replacing an element by one with the same image does not change the images. -/
theorem map_set_of_eq {α β : Type*} {f : α → β} {l : List α} {i : Nat} {a b : α}
    (here : l[i]? = some a) (same : f b = f a) : (l.set i b).map f = l.map f := by
  induction l generalizing i with
  | nil => rfl
  | cons x l ih =>
    cases i with
    | zero =>
      cases here
      rw [List.set_cons_zero, List.map_cons, List.map_cons, same]
    | succ i => rw [List.set_cons_succ, List.map_cons, List.map_cons, ih (i := i) here]

end Pixiecore.Machine
