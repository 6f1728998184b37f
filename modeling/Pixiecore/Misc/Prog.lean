import Pixiecore.Misc.Transition

/-!
# Programs that ask their environment

A program returns, or asks a question and goes on with the answer. Everything that is
not a computation is a question: input and output, randomness, memory. `Prog.run` answers
them from a state, one program at a time. In a `Pool` any number of programs take turns,
and every answer is possible.

`Safe ok h p post` is the judgement the proofs use: with `h` behind it, each question that
`p` asks, together with its answer, is allowed by `ok` at that point of its history, and
`post` holds when it returns. The rules below follow the shape of the program, and
`Pool.allowed` carries the result over to any pool.
-/

namespace Pixiecore

/-- A program with questions `Q`, whose answers depend on the question. -/
inductive Prog (Q : Type) (A : Q → Type) (α : Type) where
  | ret (a : α)
  | ask (q : Q) (k : A q → Prog Q A α)

/-- A question with its answer. -/
structure Event (Q : Type) (A : Q → Type) where
  question : Q
  answer : A question

namespace Prog

variable {Q : Type} {A : Q → Type} {α β : Type}

protected def bind (p : Prog Q A α) (f : α → Prog Q A β) : Prog Q A β :=
  match p with
  | ret a => f a
  | ask q k => ask q (fun x => (k x).bind f)

instance : Monad (Prog Q A) where
  pure := ret
  bind := Prog.bind

/-- Ask one question. -/
def ask1 (q : Q) : Prog Q A (A q) := ask q ret

/-- The program has returned. -/
def isRet : Prog Q A α → Bool
  | ret _ => true
  | ask _ _ => false

theorem exists_ret_of_any {p : Option (Prog Q A α)} (ended : p.any isRet = true) :
    ∃ a, p = some (ret a) := by
  obtain ⟨q, rfl, isEnd⟩ := (Option.any_eq_true ..).mp ended
  cases q with
  | ret a => exact ⟨a, rfl⟩
  | ask q k => cases isEnd

/-! ## Running one program -/

section Run

variable {W : Type} (answer : W → (q : Q) → A q × W)

/-- The events of a program, its result and the state of the environment afterwards. -/
def run (w : W) : Prog Q A α → List (Event Q A) × α × W
  | ret a => ([], a, w)
  | ask q k =>
    let (x, w) := answer w q
    let (es, a, w) := run w (k x)
    (⟨q, x⟩ :: es, a, w)

@[simp] theorem run_pure (w : W) (a : α) :
    run answer w (pure a : Prog Q A α) = ([], a, w) := rfl

theorem run_bind (w : W) (p : Prog Q A α) (f : α → Prog Q A β) :
    run answer w (p >>= f) =
      let (es, a, w) := run answer w p
      let (es', b, w) := run answer w (f a)
      (es ++ es', b, w) := by
  show run answer w (p.bind f) = _
  induction p generalizing w with
  | ret a => rfl
  | ask q k ih => simp only [Prog.bind, run, ih, List.cons_append]

@[simp] theorem run_ask1 (w : W) (q : Q) :
    run answer w (ask1 q : Prog Q A (A q)) =
      ([⟨q, (answer w q).1⟩], (answer w q).1, (answer w q).2) := rfl

/-! ## What is asked -/

/-- Every question of the program has the property, whatever the answers are. -/
def Asks (P : Q → Prop) : Prog Q A α → Prop
  | ret _ => True
  | ask q k => P q ∧ ∀ x, Asks P (k x)

theorem asks_pure {P : Q → Prop} (a : α) : Asks P (pure a : Prog Q A α) := trivial

theorem asks_ask1 {P : Q → Prop} {q : Q} (holds : P q) : Asks P (ask1 q : Prog Q A (A q)) :=
  ⟨holds, fun _ => trivial⟩

theorem Asks.bind {P : Q → Prop} {p : Prog Q A α} {f : α → Prog Q A β} (first : Asks P p)
    (second : ∀ a, Asks P (f a)) : Asks P (p >>= f) := by
  show Asks P (p.bind f)
  induction p with
  | ret a => exact second a
  | ask q k ih => exact ⟨first.1, fun x => ih x (first.2 x)⟩

theorem Asks.run {P : Q → Prop} {p : Prog Q A α} (asks : Asks P p) (w : W) :
    ∀ e ∈ (Prog.run answer w p).1, P e.question := by
  induction p generalizing w with
  | ret a =>
    intro e member
    cases member
  | ask q k ih =>
    intro e member
    rcases List.mem_cons.mp member with first | more
    · rw [first]
      exact asks.1
    · exact ih _ (asks.2 _) _ e more

end Run

/-! ## Allowed histories -/

/-- Each event of the program is allowed by what came before it, and `post` holds at the end. -/
def Safe (ok : List (Event Q A) → Event Q A → Prop) (h : List (Event Q A)) (p : Prog Q A α)
    (post : List (Event Q A) → α → Prop) : Prop :=
  match p with
  | ret a => post h a
  | ask q k => ∀ x, ok h ⟨q, x⟩ ∧ Safe ok (h ++ [⟨q, x⟩]) (k x) post

section Safe

variable {ok : List (Event Q A) → Event Q A → Prop} {h : List (Event Q A)}
  {P P' : List (Event Q A) → α → Prop}

theorem safe_pure {a : α} (holds : P h a) : Safe ok h (pure a : Prog Q A α) P := holds

/-- Histories only grow, so what held before a program still can be used after it. -/
theorem Safe.mono {p : Prog Q A α} (safe : Safe ok h p P)
    (weaker : ∀ h' a, h <+: h' → P h' a → P' h' a) : Safe ok h p P' := by
  induction p generalizing h with
  | ret a => exact weaker h a (List.prefix_refl h) safe
  | ask q k ih =>
    intro x
    obtain ⟨allowed, rest⟩ := safe x
    refine ⟨allowed, ih x rest ?_⟩
    intro h' a grows
    exact weaker h' a ((List.prefix_append h _).trans grows)

theorem Safe.bind {p : Prog Q A α} {f : α → Prog Q A β} {goal : List (Event Q A) → β → Prop}
    (first : Safe ok h p P)
    (second : ∀ h' a, h <+: h' → P h' a → Safe ok h' (f a) goal) :
    Safe ok h (p >>= f) goal := by
  show Safe ok h (p.bind f) goal
  induction p generalizing h with
  | ret a => exact second h a (List.prefix_refl h) first
  | ask q k ih =>
    intro x
    obtain ⟨allowed, rest⟩ := first x
    refine ⟨allowed, ih x rest ?_⟩
    intro h' a grows
    exact second h' a ((List.prefix_append h _).trans grows)

/-- A question that is always allowed; afterwards it is the last event of the history. -/
theorem safe_ask1 {q : Q} (allowed : ∀ x, ok h ⟨q, x⟩) :
    Safe ok h (ask1 q) (fun h' x => h' = h ++ [⟨q, x⟩]) :=
  fun x => ⟨allowed x, rfl⟩

end Safe

end Prog

/-! ## Programs that take turns -/

/-- The programs of a pool, by the order in which they were started, and everything they have
asked so far. -/
structure Pool (ι Q : Type) (A : Q → Type) (α : Type) where
  started : List ι
  threads : List (Prog Q A α)
  trace : List (Nat × Event Q A)

namespace Pool

variable {ι Q : Type} {A : Q → Type} {α : Type}

def empty : Pool ι Q A α := ⟨[], [], []⟩

/-- A program is started, or a question of one of them is answered. -/
inductive Step (prog : ι → Prog Q A α) : Pool ι Q A α → Pool ι Q A α → Prop
  | start (pool : Pool ι Q A α) (i : ι) :
      Step prog pool ⟨pool.started ++ [i], pool.threads ++ [prog i], pool.trace⟩
  | answer (pool : Pool ι Q A α) (t : Nat) (q : Q) (k : A q → Prog Q A α)
      (asks : pool.threads[t]? = some (.ask q k)) (x : A q) :
      Step prog pool ⟨pool.started, pool.threads.set t (k x), pool.trace ++ [(t, ⟨q, x⟩)]⟩

/-- The events of one thread. -/
def own (t : Nat) (trace : List (Nat × Event Q A)) : List (Event Q A) :=
  trace.filterMap (fun e => if e.1 = t then some e.2 else none)

theorem own_append (t : Nat) (tr tr' : List (Nat × Event Q A)) :
    own t (tr ++ tr') = own t tr ++ own t tr' := List.filterMap_append

theorem own_same (t : Nat) (e : Event Q A) : own t [(t, e)] = [e] := by
  simp [own]

theorem own_other {t t' : Nat} (other : t' ≠ t) (e : Event Q A) : own t [(t', e)] = [] := by
  simp [own, other]

theorem mem_own {t : Nat} {e : Event Q A} {trace : List (Nat × Event Q A)}
    (h : e ∈ own t trace) : (t, e) ∈ trace := by
  obtain ⟨⟨t', e'⟩, member, same⟩ := List.mem_filterMap.mp h
  split at same
  · rename_i here
    cases here
    cases same
    exact member
  · cases same

theorem own_eq_nil {t : Nat} {trace : List (Nat × Event Q A)} (h : ∀ e ∈ trace, e.1 < t) :
    own t trace = [] := by
  refine List.filterMap_eq_nil_iff.mpr (fun e member => ?_)
  have := h e member
  rw [if_neg (by omega)]

/-- Every thread is safe from where it stands, and everything it did was allowed. -/
structure Inv (ok : ι → List (Event Q A) → Event Q A → Prop) (pool : Pool ι Q A α) : Prop where
  aligned : pool.started.length = pool.threads.length
  known : ∀ e ∈ pool.trace, e.1 < pool.threads.length
  safe : ∀ t i p, pool.started[t]? = some i → pool.threads[t]? = some p →
    Prog.Safe (ok i) (own t pool.trace) p (fun _ _ => True)
  past : ∀ n t e, pool.trace[n]? = some (t, e) →
    ∃ i, pool.started[t]? = some i ∧ ok i (own t (pool.trace.take n)) e

theorem inv_empty (ok : ι → List (Event Q A) → Event Q A → Prop) :
    Inv ok (empty : Pool ι Q A α) where
  aligned := rfl
  known _ member := absurd member List.not_mem_nil
  safe _ _ _ _ thread := by cases thread
  past _ _ _ event := by cases event

section Preserved

variable {ok : ι → List (Event Q A) → Event Q A → Prop} {prog : ι → Prog Q A α}
  {pool : Pool ι Q A α}

theorem inv_start (inv : Inv ok pool) (i : ι)
    (safe : Prog.Safe (ok i) [] (prog i) (fun _ _ => True)) :
    Inv ok ⟨pool.started ++ [i], pool.threads ++ [prog i], pool.trace⟩ := by
  refine ⟨by simp [inv.aligned], ?_, ?_, ?_⟩
  · intro e member
    have := inv.known e member
    simp only [List.length_append, List.length_singleton]
    omega
  · intro t j p started thread
    by_cases new : t = pool.threads.length
    · subst new
      rw [← inv.aligned, List.getElem?_concat_length] at started
      rw [List.getElem?_concat_length] at thread
      cases started
      cases thread
      rw [own_eq_nil inv.known]
      exact safe
    · have bound : t < pool.threads.length := by
        have := (List.getElem?_eq_some_iff.mp thread).1
        simp only [List.length_append, List.length_singleton] at this
        omega
      rw [List.getElem?_append_left (by rw [inv.aligned]; exact bound)] at started
      rw [List.getElem?_append_left bound] at thread
      exact inv.safe t j p started thread
  · intro n t e event
    obtain ⟨j, started, allowed⟩ := inv.past n t e event
    have bound := (List.getElem?_eq_some_iff.mp started).1
    exact ⟨j, by rw [List.getElem?_append_left bound, started], allowed⟩

theorem inv_answer (inv : Inv ok pool) {t : Nat} {q : Q} {k : A q → Prog Q A α}
    (asks : pool.threads[t]? = some (.ask q k)) (x : A q) :
    Inv ok ⟨pool.started, pool.threads.set t (k x), pool.trace ++ [(t, ⟨q, x⟩)]⟩ := by
  have bound : t < pool.threads.length := (List.getElem?_eq_some_iff.mp asks).1
  obtain ⟨i, started⟩ : ∃ i, pool.started[t]? = some i :=
    ⟨_, List.getElem?_eq_getElem (by rw [inv.aligned]; exact bound)⟩
  obtain ⟨allowed, rest⟩ := inv.safe t i _ started asks x
  refine ⟨by simp [inv.aligned], ?_, ?_, ?_⟩
  · intro e member
    rw [List.length_set]
    rcases List.mem_append.mp member with old | new
    · exact inv.known e old
    · rw [List.mem_singleton.mp new]
      exact bound
  · intro t' j p started' thread
    by_cases same : t' = t
    · subst same
      rw [started] at started'
      cases started'
      rw [List.getElem?_set_self bound] at thread
      cases thread
      rw [own_append, own_same]
      exact rest
    · rw [List.getElem?_set_ne (Ne.symm same)] at thread
      rw [own_append, own_other (Ne.symm same), List.append_nil]
      exact inv.safe t' j p started' thread
  · intro n t' e event
    by_cases old : n < pool.trace.length
    · rw [List.getElem?_append_left old] at event
      rw [List.take_append_of_le_length (Nat.le_of_lt old)]
      exact inv.past n t' e event
    · have last : n = pool.trace.length := by
        have := (List.getElem?_eq_some_iff.mp event).1
        simp only [List.length_append, List.length_singleton] at this
        omega
      subst last
      rw [List.getElem?_concat_length] at event
      cases event
      rw [List.take_left']
      · exact ⟨i, started, allowed⟩
      · rfl

end Preserved

/-- In any pool of safe programs, every event was allowed by the earlier ones of its thread. -/
theorem allowed {ok : ι → List (Event Q A) → Event Q A → Prop} {prog : ι → Prog Q A α}
    (safe : ∀ i, Prog.Safe (ok i) [] (prog i) (fun _ _ => True)) {pool : Pool ι Q A α}
    (reach : Relation.ReflTransGen (Step prog) empty pool) {n t : Nat} {e : Event Q A}
    (event : pool.trace[n]? = some (t, e)) :
    ∃ i, pool.started[t]? = some i ∧ ok i (own t (pool.trace.take n)) e := by
  have preserved : ∀ pool pool', Inv ok pool → Step prog pool pool' → Inv ok pool' := by
    intro pool pool' inv step
    cases step with
    | start i => exact inv_start inv i (safe i)
    | answer t q k asks x => exact inv_answer inv asks x
  exact (Transition.invariant_of_reachable preserved (inv_empty ok) reach).past n t e event

/-! ## One after the other -/

section OneAtATime

variable (prog : ι → Prog Q A α) {W : Type} (ans : W → (q : Q) → A q × W)

/-- A thread that is run to its end while the others wait. -/
theorem reach_run (p : Prog Q A α) (w : W) (pool : Pool ι Q A α) (t : Nat)
    (here : pool.threads[t]? = some p) :
    Relation.ReflTransGen (Step prog) pool
      ⟨pool.started, pool.threads.set t (.ret (p.run ans w).2.1),
        pool.trace ++ (p.run ans w).1.map (Prod.mk t)⟩ := by
  induction p generalizing w pool with
  | ret a =>
    obtain ⟨bound, same⟩ := List.getElem?_eq_some_iff.mp here
    have unchanged : pool.threads.set t (.ret a) = pool.threads := by
      rw [← same, List.set_getElem_self]
    simp only [Prog.run, unchanged, List.map_nil, List.append_nil]
    exact Relation.ReflTransGen.refl
  | ask q k ih =>
    have first : Step prog pool _ := Step.answer pool t q k here (ans w q).1
    have bound := (List.getElem?_eq_some_iff.mp here).1
    have rest := ih (ans w q).1 (ans w q).2
      ⟨pool.started, pool.threads.set t (k (ans w q).1), pool.trace ++ [(t, ⟨q, (ans w q).1⟩)]⟩
      (List.getElem?_set_self bound)
    simp only [List.set_set, List.append_assoc] at rest
    exact Relation.ReflTransGen.head first rest

/-- The pool after one more program was started and run to its end. -/
def andThen (pool : Pool ι Q A α) (i : ι) (w : W) : Pool ι Q A α :=
  ⟨pool.started ++ [i], pool.threads ++ [.ret ((prog i).run ans w).2.1],
    pool.trace ++ ((prog i).run ans w).1.map (Prod.mk pool.threads.length)⟩

theorem reach_andThen (pool : Pool ι Q A α) (i : ι) (w : W) :
    Relation.ReflTransGen (Step prog) pool (andThen prog ans pool i w) := by
  have rest := reach_run prog ans (prog i) w
    ⟨pool.started ++ [i], pool.threads ++ [prog i], pool.trace⟩ pool.threads.length
    List.getElem?_concat_length
  simp only [List.set_append_right _ _ (Nat.le_refl _), Nat.sub_self, List.set_cons_zero] at rest
  exact Relation.ReflTransGen.head (Step.start pool i) rest

end OneAtATime

end Pool

end Pixiecore
