import Mathlib.Data.Set.Finite.Basic
import Mathlib.Logic.Relation
import Mathlib.Order.Interval.Finset.Nat

/-!
# Runs of transition systems

Induction over the states that a step relation reaches: an invariant that every step
preserves, and a simulation by a second system whose invariant may be used to match a
step. For infinite runs in which some steps are marked: there are finitely many marked
steps if a potential drops at each, and infinitely many if another is always possible.
-/

namespace Pixiecore.Transition

open Relation

variable {σ τ : Type*}

theorem invariant_of_reachable {step : σ → σ → Prop} {inv : σ → Prop}
    (preserved : ∀ s s', inv s → step s s' → inv s') {s s' : σ} (start : inv s)
    (reach : ReflTransGen step s s') : inv s' := by
  induction reach with
  | refl => exact start
  | tail _ last ih => exact preserved _ _ ih last

/-- If every step of the first system can be matched by some steps of the second, under the
second one's invariant, then every state the first reaches is related to one that the second
reaches. -/
theorem simulate {step : σ → σ → Prop} {step' : τ → τ → Prop} {inv : τ → Prop}
    {R : σ → τ → Prop} (preserved : ∀ t t', inv t → step' t t' → inv t')
    (matched : ∀ s s' t, inv t → R s t → step s s' →
      ∃ t', ReflTransGen step' t t' ∧ R s' t')
    {s s' : σ} {t : τ} (start : inv t) (related : R s t) (reach : ReflTransGen step s s') :
    ∃ t', ReflTransGen step' t t' ∧ inv t' ∧ R s' t' := by
  induction reach with
  | refl => exact ⟨t, ReflTransGen.refl, start, related⟩
  | tail _ last ih =>
    obtain ⟨t₁, reach₁, inv₁, related₁⟩ := ih
    obtain ⟨t₂, reach₂, related₂⟩ := matched _ _ _ inv₁ related₁ last
    exact ⟨t₂, reach₁.trans reach₂, invariant_of_reachable preserved inv₁ reach₂, related₂⟩

/-! ## Infinite runs -/

/-- An infinite run of a system whose steps may be marked. -/
structure Run (step : σ → Bool → σ → Prop) (start : σ) where
  state : Nat → σ
  marked : Nat → Bool
  begins : state 0 = start
  steps : ∀ n, step (state n) (marked n) (state (n + 1))

variable {step : σ → Bool → σ → Prop} {start : σ}

theorem Run.invariant {inv : σ → Prop} (preserved : ∀ s b s', inv s → step s b s' → inv s')
    (r : Run step start) (initially : inv start) (n : Nat) : inv (r.state n) := by
  induction n with
  | zero =>
    rw [r.begins]
    exact initially
  | succ n ih => exact preserved _ _ _ ih (r.steps n)

/-- A potential that never grows, and drops at every marked step, allows only finitely many. -/
theorem Run.finite_marked {inv : σ → Prop} {potential : σ → Nat}
    (preserved : ∀ s b s', inv s → step s b s' → inv s')
    (pays : ∀ s b s', inv s → step s b s' → potential s' + b.toNat ≤ potential s)
    (r : Run step start) (initially : inv start) : {n | r.marked n = true}.Finite := by
  have pay : ∀ n, potential (r.state (n + 1)) + (r.marked n).toNat ≤ potential (r.state n) :=
    fun n => pays _ _ _ (r.invariant preserved initially n) (r.steps n)
  have antitone : ∀ m n, m ≤ n → potential (r.state n) ≤ potential (r.state m) := by
    intro m n order
    induction n, order using Nat.le_induction with
    | base => exact Nat.le_refl _
    | succ n _ ih => exact Nat.le_trans (Nat.le_trans (Nat.le_add_right _ _) (pay n)) ih
  -- from the point where the potential is least, it cannot drop any more
  obtain ⟨_, ⟨least, rfl⟩, minimal⟩ := WellFounded.has_min (wellFounded_lt (α := Nat))
    (Set.range fun n => potential (r.state n)) ⟨_, 0, rfl⟩
  refine (Set.finite_lt_nat least).subset ?_
  intro n marked
  by_contra late
  have drop := pay n
  rw [show r.marked n = true from marked] at drop
  have low := minimal _ ⟨n + 1, rfl⟩
  have high := antitone least n (Nat.le_of_not_lt late)
  simp only [Bool.toNat_true] at drop low
  omega

/-- If a marked step is possible, and possible again after it, there is a run with marked steps
only. -/
theorem exists_all_marked {inv : σ → Prop}
    (again : ∀ s, inv s → ∃ s', step s true s' ∧ inv s') (initially : inv start) :
    ∃ r : Run step start, ∀ n, r.marked n = true := by
  choose! next steps holds using again
  have always : ∀ n, inv (next^[n] start) := by
    intro n
    induction n with
    | zero => exact initially
    | succ n ih =>
      rw [Function.iterate_succ_apply']
      exact holds _ ih
  refine ⟨⟨fun n => next^[n] start, fun _ => true, rfl, fun n => ?_⟩, fun _ => rfl⟩
  rw [Function.iterate_succ_apply']
  exact steps _ (always n)

end Pixiecore.Transition
