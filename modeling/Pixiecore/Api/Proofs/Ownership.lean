import Pixiecore.Api.Proofs.Slices
import Pixiecore.Misc.Shared

/-!
# Ownership of arrays

The handlers of the HTTP server run at the same time and share the arrays of the process. A
handler's view is the arrays that it has made itself; some arrays may be frozen, and nobody owns
those. `Refines` compares a program that works on slices with one that has no memory at all:
whatever other handlers do, it returns what the other returns on the same answers from outside.
-/

namespace Pixiecore.Api

/-- Some arrays and their elements. -/
abbrev Arrays := Nat → Option (List Bytes)

/-- No arrays. -/
def noArrays : Arrays := fun _ => none

/-- The views of handlers, with some arrays that are never written again. -/
def owning (W : Type) (frozen : Arrays) : Views (World W) Arrays where
  holds v w := (∀ a xs, v a = some xs → w.arrays[a]? = some xs) ∧
    ∀ a xs, frozen a = some xs → w.arrays[a]? = some xs ∧ v a = none
  apart u v := ∀ a, u a = none ∨ v a = none
  symm separate a := (separate a).symm

/-- The question leaves the process, or the package. -/
def Question.isOutside : Question → Bool
  | .makeSlice _ | .index _ _ | .setIndex _ _ _ => false
  | _ => true

/-- The events without those about memory. -/
def outsideEvents (es : List Asked) : List Asked := es.filter (fun e => e.question.isOutside)

@[simp] theorem outsideEvents_append (es es' : List Asked) :
    outsideEvents (es ++ es') = outsideEvents es ++ outsideEvents es' := List.filter_append es es'

theorem arrays_answer_of_isOutside {W : Type} (out : Outside W) (box : Secretbox) (key : Key)
    (w : World W) {q : Question} (outside : q.isOutside = true) :
    (answer out box key w q).2.arrays = w.arrays := by
  cases q <;> first | rfl | cases outside

section Rules

variable {W : Type} {out : Outside W} {box : Secretbox} {key : Key} {frozen v : Arrays}

/-! ## Single operations -/

/-- Nothing happens to the arrays. -/
theorem moves_of_arrays {w : World W} {q : Question}
    (same : (answer out box key w q).2.arrays = w.arrays) (here : (owning W frozen).holds v w) :
    Prog.Moves (answer out box key) (owning W frozen) w q v v := by
  refine ⟨?_, fun u separate there => ⟨?_, separate⟩⟩
  · simpa only [owning, same] using here
  · simpa only [owning, same] using there

/-- Reading an array that is owned or frozen. -/
theorem local_index {s : Slice} {xs : List Bytes}
    (readable : v s.arr = some xs ∨ frozen s.arr = some xs) (i : Nat) :
    Prog.Local (answer out box key) (owning W frozen) v (index s i)
      (fun v' es x => outsideEvents es = [] ∧ v' = v ∧ x = xs.getD i []) := by
  refine Prog.local_ask1 (fun w here => ⟨v, moves_of_arrays rfl here, rfl, rfl, ?_⟩)
  have found : w.arrays[s.arr]? = some xs := by
    rcases readable with own | shared
    · exact here.1 _ _ own
    · exact (here.2 _ _ shared).1
  simp only [answer, elems_of_getElem? found]

/-- A new array is owned by who made it; nobody else can have it. -/
theorem local_makeSlice (xs : List Bytes) :
    Prog.Local (answer out box key) (owning W frozen) v (makeSlice xs)
      (fun v' es s => outsideEvents es = [] ∧ v' s.arr = some xs ∧ s.len = xs.length) := by
  refine Prog.local_ask1 (fun w here =>
    ⟨Function.update v w.arrays.length (some xs), ⟨?_, ?_⟩, rfl, Function.update_self .., rfl⟩)
  · refine ⟨fun a ys owned => ?_, fun a ys shared => ?_⟩
    · by_cases new : a = w.arrays.length
      · subst new
        rw [Function.update_self] at owned
        cases owned
        exact List.getElem?_concat_length
      · rw [Function.update_of_ne new] at owned
        have old := here.1 a ys owned
        exact (List.getElem?_append_left (List.getElem?_eq_some_iff.mp old).1).trans old
    · obtain ⟨old, free⟩ := here.2 a ys shared
      have below := (List.getElem?_eq_some_iff.mp old).1
      exact ⟨(List.getElem?_append_left below).trans old,
        (Function.update_of_ne (Nat.ne_of_lt below) _ _).trans free⟩
  · intro u separate there
    have grown : ∀ a ys, w.arrays[a]? = some ys → (w.arrays ++ [xs])[a]? = some ys :=
      fun a ys old => (List.getElem?_append_left (List.getElem?_eq_some_iff.mp old).1).trans old
    refine ⟨⟨fun a ys owned => grown a ys (there.1 a ys owned),
      fun a ys shared => ⟨grown a ys (there.2 a ys shared).1, (there.2 a ys shared).2⟩⟩,
      fun a => ?_⟩
    by_cases new : a = w.arrays.length
    · left
      by_contra owned
      obtain ⟨ys, owned⟩ := Option.ne_none_iff_exists'.mp owned
      have below := (List.getElem?_eq_some_iff.mp (there.1 a ys owned)).1
      omega
    · rw [Function.update_of_ne new]
      exact separate a

/-- Writing to an array that is owned: it is not frozen, and no other view has it. -/
theorem local_setIndex {s : Slice} {xs : List Bytes} (owned : v s.arr = some xs) (i : Nat)
    (x : Bytes) :
    Prog.Local (answer out box key) (owning W frozen) v (setIndex s i x)
      (fun v' es _ => outsideEvents es = [] ∧ v' s.arr = some (xs.set i x)) := by
  refine Prog.local_ask1 (fun w here =>
    ⟨Function.update v s.arr (some (xs.set i x)), ⟨?_, ?_⟩, rfl, Function.update_self ..⟩)
  · have found := here.1 _ _ owned
    have bound := (List.getElem?_eq_some_iff.mp found).1
    refine ⟨fun a ys mine => ?_, fun a ys shared => ?_⟩
    · by_cases target : a = s.arr
      · subst target
        rw [Function.update_self] at mine
        cases mine
        simp only [answer, elems_of_getElem? found]
        exact List.getElem?_set_self bound
      · rw [Function.update_of_ne target] at mine
        exact (List.getElem?_set_ne (Ne.symm target)).trans (here.1 a ys mine)
    · obtain ⟨old, free⟩ := here.2 a ys shared
      have other : a ≠ s.arr := by
        intro target
        rw [target, owned] at free
        cases free
      exact ⟨(List.getElem?_set_ne (Ne.symm other)).trans old,
        (Function.update_of_ne other _ _).trans free⟩
  · intro u separate there
    have notMine : u s.arr = none := by
      rcases separate s.arr with free | free
      · exact free
      · rw [owned] at free
        cases free
    refine ⟨⟨fun a ys theirs => ?_, fun a ys shared => ?_⟩, fun a => ?_⟩
    · have other : a ≠ s.arr := by
        intro target
        rw [target, notMine] at theirs
        cases theirs
      exact (List.getElem?_set_ne (Ne.symm other)).trans (there.1 a ys theirs)
    · obtain ⟨old, free⟩ := there.2 a ys shared
      have other : a ≠ s.arr := by
        intro target
        have mine := (here.2 a ys shared).2
        rw [target, owned] at mine
        cases mine
      exact ⟨(List.getElem?_set_ne (Ne.symm other)).trans old, free⟩
    · by_cases target : a = s.arr
      · rw [target]
        exact .inl notMine
      · rw [Function.update_of_ne target]
        exact separate a

/-- Reading a slice from where `done` ends gives the rest of its array. -/
theorem local_readElems {s : Slice} (done todo : List Bytes)
    (readable : v s.arr = some (done ++ todo) ∨ frozen s.arr = some (done ++ todo)) :
    Prog.Local (answer out box key) (owning W frozen) v
      (readElems s (List.range' done.length todo.length))
      (fun v' es xs => outsideEvents es = [] ∧ v' = v ∧ xs = todo) := by
  induction todo generalizing done with
  | nil => exact Prog.local_pure ⟨rfl, rfl, rfl⟩
  | cons x todo ih =>
    rw [List.length_cons, List.range'_succ]
    refine (local_index readable done.length).bind ?_
    rintro v' es y ⟨quiet, rfl, rfl⟩
    rw [getD_append_cons]
    have rest := ih (done ++ [x]) (by simpa only [List.append_assoc, List.singleton_append])
    rw [List.length_append, List.length_singleton] at rest
    refine rest.bind ?_
    rintro v'' es' ys ⟨quiet', rfl, rfl⟩
    exact Prog.local_pure ⟨by simp [quiet, quiet'], rfl, rfl⟩

/-- Reading the whole slice. -/
theorem local_readAll {s : Slice} {xs : List Bytes}
    (readable : v s.arr = some xs ∨ frozen s.arr = some xs) (whole : s.len = xs.length) :
    Prog.Local (answer out box key) (owning W frozen) v (readElems s (List.range s.len))
      (fun v' es ys => outsideEvents es = [] ∧ v' = v ∧ ys = xs) := by
  rw [whole, List.range_eq_range']
  exact local_readElems [] xs readable

end Rules

/-! ## Programs without memory -/

section Refines

variable {W : Type} (out : Outside W) (box : Secretbox) (key : Key) (frozen : Arrays)
  {α β γ δ : Type}

/-- With the arrays of `v`, the program `p` returns what `plain` returns on the same answers from
outside, up to `rel`, which may look at the arrays that are owned in the end. -/
def Refines (v : Arrays) (p : Program α) (plain : Program β) (rel : Arrays → α → β → Prop) : Prop :=
  Prog.Local (answer out box key) (owning W frozen) v p
    (fun v' es a => ∃ b, Prog.Replays plain (outsideEvents es) b ∧ rel v' a b)

variable {out box key frozen} {v : Arrays}

theorem refines_pure {a : α} {b : β} {rel : Arrays → α → β → Prop} (related : rel v a b) :
    Refines out box key frozen v (pure a) (pure b) rel :=
  Prog.local_pure ⟨b, Prog.replays_pure b, related⟩

theorem Refines.mono {p : Program α} {plain : Program β} {rel rel' : Arrays → α → β → Prop}
    (first : Refines out box key frozen v p plain rel)
    (weaker : ∀ v' a b, rel v' a b → rel' v' a b) : Refines out box key frozen v p plain rel' :=
  Prog.Local.mono first (fun v' _ a ⟨b, replays, related⟩ => ⟨b, replays, weaker v' a b related⟩)

/-- Step by step on both sides. -/
theorem Refines.bind {p : Program α} {plain : Program β} {f : α → Program γ} {g : β → Program δ}
    {rel : Arrays → α → β → Prop} {goal : Arrays → γ → δ → Prop}
    (first : Refines out box key frozen v p plain rel)
    (second : ∀ v' a b, rel v' a b → Refines out box key frozen v' (f a) (g b) goal) :
    Refines out box key frozen v (p >>= f) (plain >>= g) goal := by
  refine Prog.Local.bind first ?_
  rintro v' es a ⟨b, replays, related⟩
  refine Prog.Local.mono (second v' a b related) ?_
  rintro v'' es' c ⟨d, replays', related'⟩
  rw [outsideEvents_append]
  exact ⟨d, replays.bind replays', related'⟩

/-- Work on memory has no counterpart. -/
theorem Refines.after_memory {p : Program α} {f : α → Program γ} {plain : Program δ}
    {holds : Arrays → α → Prop} {goal : Arrays → γ → δ → Prop}
    (first : Prog.Local (answer out box key) (owning W frozen) v p
      (fun v' es a => outsideEvents es = [] ∧ holds v' a))
    (second : ∀ v' a, holds v' a → Refines out box key frozen v' (f a) plain goal) :
    Refines out box key frozen v (p >>= f) plain goal := by
  refine Prog.Local.bind first ?_
  rintro v' es a ⟨quiet, here⟩
  refine Prog.Local.mono (second v' a here) ?_
  rintro v'' es' c ⟨d, replays, related⟩
  rw [outsideEvents_append, quiet, List.nil_append]
  exact ⟨d, replays, related⟩

/-- A program that never looks at memory is its own counterpart. -/
theorem refines_self {p : Program α} (asks : Prog.Asks (fun q => q.isOutside = true) p) :
    Refines out box key frozen v p p (fun v' a b => v' = v ∧ a = b) := by
  induction p with
  | ret a => exact refines_pure ⟨rfl, rfl⟩
  | ask q k ih =>
    intro w here
    refine ⟨v, moves_of_arrays (arrays_answer_of_isOutside out box key w asks.1) here, ?_⟩
    refine Prog.Local.mono (ih _ (asks.2 _)) ?_
    rintro v' es a ⟨b, replays, same⟩
    refine ⟨b, ⟨_, outsideEvents es, ?_, replays⟩, same⟩
    rw [outsideEvents, List.filter_cons_of_pos (by exact asks.1)]
    rfl

end Refines

end Pixiecore.Api
