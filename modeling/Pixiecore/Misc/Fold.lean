import Mathlib.Data.List.Basic

/-!
# Loops over a list

Two shapes of loop: one that checks every element and may stop with an error
(`foldlM_ok_iff`), and one that keeps the last answer any element gave (`lastSome`).
-/

namespace Pixiecore

section Checked

variable {α ε σ : Type}

/-- A loop whose body accepts exactly the elements that satisfy `P`, and then updates
the state by `f`, succeeds exactly when every element satisfies `P`. -/
theorem foldlM_ok_iff (body : σ → α → Except ε σ) (P : α → Prop) (f : σ → α → σ)
    (hbody : ∀ st x st', body st x = .ok st' ↔ P x ∧ st' = f st x) :
    ∀ (xs : List α) (st st' : σ),
      xs.foldlM body st = .ok st' ↔ (∀ x ∈ xs, P x) ∧ st' = xs.foldl f st := by
  intro xs
  induction xs with
  | nil =>
    intro st st'
    simp only [List.foldlM_nil, List.foldl_nil, List.not_mem_nil, false_implies, implies_true,
      true_and, pure, Except.pure, Except.ok.injEq]
    exact eq_comm
  | cons x xs ih =>
    intro st st'
    rw [List.foldlM_cons, List.foldl_cons, List.forall_mem_cons]
    cases stepped : body st x with
    | error e =>
      have bad : ¬ P x := by
        intro good
        have := (hbody st x (f st x)).mpr ⟨good, rfl⟩
        rw [stepped] at this
        cases this
      simp only [bind, Except.bind, reduceCtorEq, false_iff]
      exact fun h => bad h.1.1
    | ok mid =>
      obtain ⟨good, rfl⟩ := (hbody st x mid).mp stepped
      simp only [bind, Except.bind, ih, good, true_and]

/-- Elements that the body ignores can be left out. -/
theorem foldlM_filter (body : σ → α → Except ε σ) (p : α → Bool)
    (ignored : ∀ st x, p x = false → body st x = .ok st) (xs : List α) (st : σ) :
    (xs.filter p).foldlM body st = xs.foldlM body st := by
  induction xs generalizing st with
  | nil => rfl
  | cons x xs ih =>
    cases kept : p x with
    | true =>
      rw [List.filter_cons_of_pos kept, List.foldlM_cons, List.foldlM_cons]
      cases body st x with
      | error e => rfl
      | ok st' => exact ih st'
    | false =>
      rw [List.filter_cons_of_neg (by rw [kept]; decide), List.foldlM_cons, ignored st x kept]
      exact ih st

/-- Elements can be replaced by others with which the body does the same. -/
theorem foldlM_congr {body : σ → α → Except ε σ} {xs ys : List α}
    (same : List.Forall₂ (fun x y => ∀ st, body st x = body st y) xs ys) (st : σ) :
    xs.foldlM body st = ys.foldlM body st := by
  induction same generalizing st with
  | nil => rfl
  | cons here _ ih =>
    rw [List.foldlM_cons, List.foldlM_cons, here st]
    cases body st _ with
    | error e => rfl
    | ok st' => exact ih st'

end Checked

section LastAnswer

variable {α β : Type}

/-- The answer of the last element that gives one. -/
def lastSome (h : α → Option β) (xs : List α) : Option β := (xs.filterMap h).getLast?

theorem lastSome_cons (h : α → Option β) (x : α) (xs : List α) :
    lastSome h (x :: xs) = (lastSome h xs).or (h x) := by
  unfold lastSome
  cases answer : h x with
  | none => simp [answer]
  | some v =>
    rw [List.filterMap_cons_some answer, List.getLast?_cons]
    cases (xs.filterMap h).getLast? <;> rfl

theorem lastSome_mem {h : α → Option β} {xs : List α} {v : β} (found : lastSome h xs = some v) :
    ∃ x ∈ xs, h x = some v :=
  List.mem_filterMap.mp (List.mem_of_getLast? found)

theorem lastSome_eq_none {h : α → Option β} {xs : List α} :
    lastSome h xs = none ↔ ∀ x ∈ xs, h x = none := by
  rw [lastSome, List.getLast?_eq_none_iff, List.filterMap_eq_nil_iff]

/-- The last answer comes from an element after which none gives one. -/
theorem lastSome_eq_some_iff {h : α → Option β} {xs : List α} {v : β} :
    lastSome h xs = some v ↔
      ∃ front x back, xs = front ++ x :: back ∧ h x = some v ∧ ∀ y ∈ back, h y = none := by
  constructor
  · intro found
    induction xs with
    | nil => cases found
    | cons x xs ih =>
      rw [lastSome_cons] at found
      cases later : lastSome h xs with
      | none =>
        rw [later] at found
        exact ⟨[], x, xs, rfl, found, lastSome_eq_none.mp later⟩
      | some v' =>
        rw [later, Option.some_or] at found
        obtain ⟨front, y, back, rfl, answers, silent⟩ := ih (later.trans found)
        exact ⟨x :: front, y, back, rfl, answers, silent⟩
  · intro ⟨front, x, back, split, answers, silent⟩
    have after : lastSome h (x :: back) = some v := by
      rw [lastSome_cons, lastSome_eq_none.mpr silent]
      exact answers
    rw [split, lastSome, List.filterMap_append, List.getLast?_append]
    rw [lastSome] at after
    rw [after]
    rfl

end LastAnswer

end Pixiecore
