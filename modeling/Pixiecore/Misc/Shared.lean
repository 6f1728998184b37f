import Mathlib.Logic.Function.Basic
import Pixiecore.Misc.Prog

/-!
# Programs that share a world

The programs of a pool take turns, and their questions are answered from one world that all
of them change. A thread is verified alone, with a view of the world that is its own:
`Local v p post` says that each step of `p` keeps its view up to date, leaves every view that is
apart from it as it was, and that `post` holds in the end. `Shared.finished` is the rule that makes
use of it: in any interleaving, what was shown of a thread alone holds of it.
-/

namespace Pixiecore

/-- Views of a world, when they hold, and when two of them have nothing to do with each other. -/
structure Views (W V : Type) where
  holds : V → W → Prop
  apart : V → V → Prop
  symm : ∀ {u v : V}, apart u v → apart v u

namespace Prog

variable {Q : Type} {A : Q → Type} {α β W V : Type} (answer : W → (q : Q) → A q × W)
  (vs : Views W V)

/-- The answer to `q` takes view `v` to `v'`, in world `w`, and no other view notices. -/
structure Moves (w : W) (q : Q) (v v' : V) : Prop where
  holds : vs.holds v' (answer w q).2
  frame : ∀ u, vs.apart u v → vs.holds u w → vs.holds u (answer w q).2 ∧ vs.apart u v'

/-- With view `v`, the program keeps to its view and ends with `post`, which may speak about its
events and its last view. -/
def Local (v : V) : Prog Q A α → (V → List (Event Q A) → α → Prop) → Prop
  | ret a, post => post v [] a
  | ask q k, post => ∀ w, vs.holds v w → ∃ v', Moves answer vs w q v v' ∧
      Local v' (k (answer w q).1) (fun v'' es a => post v'' (⟨q, (answer w q).1⟩ :: es) a)

section Rules

variable {answer vs} {v : V} {post post' : V → List (Event Q A) → α → Prop}

theorem local_pure {a : α} (holds : post v [] a) :
    Local answer vs v (pure a : Prog Q A α) post := holds

theorem Local.mono {p : Prog Q A α} (first : Local answer vs v p post)
    (weaker : ∀ v' es a, post v' es a → post' v' es a) : Local answer vs v p post' := by
  induction p generalizing v post post' with
  | ret a => exact weaker v [] a first
  | ask q k ih =>
    intro w here
    obtain ⟨v', moves, rest⟩ := first w here
    exact ⟨v', moves, ih _ rest (fun v'' es a => weaker v'' _ a)⟩

theorem Local.bind {p : Prog Q A α} {f : α → Prog Q A β}
    {goal : V → List (Event Q A) → β → Prop} (first : Local answer vs v p post)
    (second : ∀ v' es a, post v' es a →
      Local answer vs v' (f a) (fun v'' es' b => goal v'' (es ++ es') b)) :
    Local answer vs v (p >>= f) goal := by
  show Local answer vs v (p.bind f) goal
  induction p generalizing v post goal with
  | ret a => exact second v [] a first
  | ask q k ih =>
    intro w here
    obtain ⟨v', moves, rest⟩ := first w here
    exact ⟨v', moves, ih _ rest (fun v'' es a => second v'' _ a)⟩

/-- Whatever a program was told is what the world answered at that time. -/
theorem Local.answered {p : Prog Q A α} (first : Local answer vs v p post) :
    Local answer vs v p (fun v' es a => post v' es a ∧
      ∀ e ∈ es, ∃ w, e.answer = (answer w e.question).1) := by
  induction p generalizing v post with
  | ret a => exact ⟨first, fun _ member => absurd member List.not_mem_nil⟩
  | ask q k ih =>
    intro w here
    obtain ⟨v', moves, rest⟩ := first w here
    refine ⟨v', moves, (ih _ rest).mono ?_⟩
    rintro v'' es a ⟨holds, answered⟩
    exact ⟨holds, List.forall_mem_cons.mpr ⟨⟨w, rfl⟩, answered⟩⟩

theorem local_ask1 {q : Q} {goal : V → List (Event Q A) → A q → Prop}
    (moves : ∀ w, vs.holds v w → ∃ v', Moves answer vs w q v v' ∧
      goal v' [⟨q, (answer w q).1⟩] (answer w q).1) :
    Local answer vs v (ask1 q) goal := moves

end Rules

/-! ## Replaying events -/

/-- The program, given these answers to its questions, returns `a`. -/
def Replays : Prog Q A α → List (Event Q A) → α → Prop
  | ret b, es, a => es = [] ∧ b = a
  | ask q k, es, a => ∃ x rest, es = ⟨q, x⟩ :: rest ∧ Replays (k x) rest a

theorem replays_pure (a : α) : Replays (pure a : Prog Q A α) [] a := ⟨rfl, rfl⟩

theorem Replays.bind {p : Prog Q A α} {f : α → Prog Q A β} {es es' : List (Event Q A)} {a : α}
    {b : β} (first : Replays p es a) (second : Replays (f a) es' b) :
    Replays (p >>= f) (es ++ es') b := by
  show Replays (p.bind f) (es ++ es') b
  induction p generalizing es with
  | ret c =>
    obtain ⟨rfl, rfl⟩ := first
    exact second
  | ask q k ih =>
    obtain ⟨x, rest, rfl, later⟩ := first
    exact ⟨x, rest ++ es', rfl, ih x later⟩

end Prog

/-! ## The pool -/

/-- A pool together with the world that it runs in. -/
structure Shared (ι Q : Type) (A : Q → Type) (α W : Type) extends Pool ι Q A α where
  world : W

namespace Shared

variable {ι Q : Type} {A : Q → Type} {α W V : Type}

/-- Nothing has been started yet. -/
def empty (w : W) : Shared ι Q A α W := ⟨Pool.empty, w⟩

/-- A program is started, or a question of one of them is answered from the world. -/
inductive Step (answer : W → (q : Q) → A q × W) (prog : ι → Prog Q A α) :
    Shared ι Q A α W → Shared ι Q A α W → Prop
  | start (s : Shared ι Q A α W) (i : ι) :
      Step answer prog s ⟨⟨s.started ++ [i], s.threads ++ [prog i], s.trace⟩, s.world⟩
  | answer (s : Shared ι Q A α W) (t : Nat) (q : Q) (k : A q → Prog Q A α)
      (asks : s.threads[t]? = some (.ask q k)) :
      Step answer prog s ⟨⟨s.started, s.threads.set t (k (answer s.world q).1),
        s.trace ++ [(t, ⟨q, (answer s.world q).1⟩)]⟩, (answer s.world q).2⟩

/-- What a scheduler can do. -/
inductive Move (ι : Type) where
  | start (i : ι)
  | go (t : Nat)

/-- One move; a thread that has returned does not go on. -/
def move (answer : W → (q : Q) → A q × W) (prog : ι → Prog Q A α) (s : Shared ι Q A α W) :
    Move ι → Shared ι Q A α W
  | .start i => ⟨⟨s.started ++ [i], s.threads ++ [prog i], s.trace⟩, s.world⟩
  | .go t =>
    match s.threads[t]? with
    | some (.ask q k) =>
      ⟨⟨s.started, s.threads.set t (k (answer s.world q).1),
        s.trace ++ [(t, ⟨q, (answer s.world q).1⟩)]⟩, (answer s.world q).2⟩
    | _ => s

/-- Every schedule is an execution. -/
theorem reach_moves (answer : W → (q : Q) → A q × W) (prog : ι → Prog Q A α)
    (moves : List (Move ι)) (s : Shared ι Q A α W) :
    Relation.ReflTransGen (Step answer prog) s (moves.foldl (move answer prog) s) := by
  induction moves generalizing s with
  | nil => exact Relation.ReflTransGen.refl
  | cons m moves ih =>
    refine Relation.ReflTransGen.trans ?_ (ih _)
    cases m with
    | start i => exact Relation.ReflTransGen.single (Step.start s i)
    | go t =>
      simp only [move]
      split
      · rename_i q k asks
        exact Relation.ReflTransGen.single (Step.answer s t q k asks)
      · exact Relation.ReflTransGen.refl

variable {answer : W → (q : Q) → A q × W} {vs : Views W V} {base : V}
  {post : ι → List (Event Q A) → α → Prop} {prog : ι → Prog Q A α}

/-- Each thread has a view that holds, apart from those of the others, and goes on as it should. -/
structure Inv (answer : W → (q : Q) → A q × W) (vs : Views W V) (base : V)
    (post : ι → List (Event Q A) → α → Prop) (s : Shared ι Q A α W) : Prop where
  aligned : s.started.length = s.threads.length
  known : ∀ e ∈ s.trace, e.1 < s.threads.length
  based : vs.holds base s.world
  views : ∃ view : Nat → V,
    (∀ t u, t < s.threads.length → u < s.threads.length → t ≠ u → vs.apart (view t) (view u)) ∧
    (∀ t, t < s.threads.length → vs.holds (view t) s.world) ∧
    ∀ t i p, s.started[t]? = some i → s.threads[t]? = some p →
      Prog.Local answer vs (view t) p (fun _ es a => post i (Pool.own t s.trace ++ es) a)

theorem inv_start (free : ∀ u, vs.apart u base)
    (alone : ∀ i, Prog.Local answer vs base (prog i) (fun _ es a => post i es a))
    {s : Shared ι Q A α W} (inv : Inv answer vs base post s) (i : ι) :
    Inv answer vs base post ⟨⟨s.started ++ [i], s.threads ++ [prog i], s.trace⟩, s.world⟩ := by
  obtain ⟨aligned, known, based, view, apart, holds, goes⟩ := inv
  refine ⟨by simp [aligned], ?_, based, Function.update view s.threads.length base, ?_, ?_, ?_⟩
  · intro e member
    have := known e member
    simp only [List.length_append, List.length_singleton]
    omega
  · intro t u tBound uBound other
    simp only [List.length_append, List.length_singleton] at tBound uBound
    by_cases tNew : t = s.threads.length
    · rw [tNew, Function.update_self, Function.update_of_ne (by omega)]
      exact vs.symm (free _)
    · rw [Function.update_of_ne tNew]
      by_cases uNew : u = s.threads.length
      · rw [uNew, Function.update_self]
        exact free _
      · rw [Function.update_of_ne uNew]
        exact apart t u (by omega) (by omega) other
  · intro t bound
    simp only [List.length_append, List.length_singleton] at bound
    by_cases new : t = s.threads.length
    · rw [new, Function.update_self]
      exact based
    · rw [Function.update_of_ne new]
      exact holds t (by omega)
  · intro t j p started thread
    by_cases new : t = s.threads.length
    · subst new
      rw [Function.update_self]
      rw [← aligned, List.getElem?_concat_length] at started
      rw [List.getElem?_concat_length] at thread
      cases started
      cases thread
      rw [Pool.own_eq_nil known]
      exact alone i
    · have bound : t < s.threads.length := by
        have := (List.getElem?_eq_some_iff.mp thread).1
        simp only [List.length_append, List.length_singleton] at this
        omega
      rw [Function.update_of_ne new]
      rw [List.getElem?_append_left (by rw [aligned]; exact bound)] at started
      rw [List.getElem?_append_left bound] at thread
      exact goes t j p started thread

theorem inv_answer (free : ∀ u, vs.apart u base) {s : Shared ι Q A α W}
    (inv : Inv answer vs base post s) {t : Nat} {q : Q} {k : A q → Prog Q A α}
    (asks : s.threads[t]? = some (.ask q k)) :
    Inv answer vs base post ⟨⟨s.started, s.threads.set t (k (answer s.world q).1),
      s.trace ++ [(t, ⟨q, (answer s.world q).1⟩)]⟩, (answer s.world q).2⟩ := by
  obtain ⟨aligned, known, based, view, apart, holds, goes⟩ := inv
  have bound : t < s.threads.length := (List.getElem?_eq_some_iff.mp asks).1
  obtain ⟨i, started⟩ : ∃ i, s.started[t]? = some i :=
    ⟨_, List.getElem?_eq_getElem (by rw [aligned]; exact bound)⟩
  obtain ⟨v', moves, rest⟩ := goes t i _ started asks s.world (holds t bound)
  have others : ∀ u, u < s.threads.length → u ≠ t →
      vs.holds (view u) (answer s.world q).2 ∧ vs.apart (view u) v' := fun u inside other =>
    moves.frame _ (apart u t inside bound other) (holds u inside)
  refine ⟨by simp [aligned], ?_, ?_, Function.update view t v', ?_, ?_, ?_⟩
  · intro e member
    rw [List.length_set]
    rcases List.mem_append.mp member with old | new
    · exact known e old
    · rw [List.mem_singleton.mp new]
      exact bound
  · exact (moves.frame base (vs.symm (free _)) based).1
  · intro u u' inside inside' other
    rw [List.length_set] at inside inside'
    by_cases here : u = t
    · have apart : u' ≠ t := fun same => other (here.trans same.symm)
      rw [here, Function.update_self, Function.update_of_ne apart]
      exact vs.symm (others u' inside' apart).2
    · rw [Function.update_of_ne here]
      by_cases there : u' = t
      · rw [there, Function.update_self]
        exact (others u inside here).2
      · rw [Function.update_of_ne there]
        exact apart u u' inside inside' other
  · intro u inside
    rw [List.length_set] at inside
    by_cases here : u = t
    · rw [here, Function.update_self]
      exact moves.holds
    · rw [Function.update_of_ne here]
      exact (others u inside here).1
  · intro u j p started' thread
    by_cases here : u = t
    · subst here
      rw [started] at started'
      cases started'
      rw [List.getElem?_set_self bound] at thread
      cases thread
      rw [Function.update_self, Pool.own_append, Pool.own_same]
      exact rest.mono (fun _ es a holds => by rwa [List.append_assoc])
    · rw [List.getElem?_set_ne (Ne.symm here)] at thread
      rw [Function.update_of_ne here, Pool.own_append, Pool.own_other (Ne.symm here),
        List.append_nil]
      exact goes u j p started' thread

section Reach

variable (free : ∀ u, vs.apart u base)
  (alone : ∀ i, Prog.Local answer vs base (prog i) (fun _ es a => post i es a)) {w : W}
  (based : vs.holds base w) {s : Shared ι Q A α W}
  (reach : Relation.ReflTransGen (Step answer prog) (empty w) s)

include free alone based reach

theorem inv_of_reach : Inv answer vs base post s := by
  have preserved : ∀ s s', Inv answer vs base post s → Step answer prog s s' →
      Inv answer vs base post s' := by
    intro s s' inv step
    cases step with
    | start i => exact inv_start free alone inv i
    | answer t q k asks => exact inv_answer free inv asks
  have initial : Inv answer vs base post (empty w : Shared ι Q A α W) := by
    refine ⟨rfl, fun _ member => absurd member List.not_mem_nil, based, fun _ => base, ?_, ?_, ?_⟩
    · exact fun t _ bound => absurd bound (Nat.not_lt_zero t)
    · exact fun t bound => absurd bound (Nat.not_lt_zero t)
    · intro t i p _ thread
      cases thread
  exact Transition.invariant_of_reachable preserved initial reach

/-- What no thread may change stays as it was, at every point of an interleaving. -/
theorem base_holds : vs.holds base s.world := (inv_of_reach free alone based reach).based

/-- In any interleaving, a thread that has returned satisfies what was shown of it alone. -/
theorem finished {t : Nat} {i : ι} {a : α} (started : s.started[t]? = some i)
    (returned : s.threads[t]? = some (.ret a)) : post i (Pool.own t s.trace) a := by
  obtain ⟨_, _, _, view, _, _, goes⟩ := inv_of_reach free alone based reach
  have ended : post i (Pool.own t s.trace ++ []) a := goes t i _ started returned
  rwa [List.append_nil] at ended

end Reach

end Shared

end Pixiecore
