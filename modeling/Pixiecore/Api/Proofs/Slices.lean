import Pixiecore.Api.World

/-!
# Slices in memory

What a program reads when it goes through a slice. Nothing but `setIndex` changes an array
that exists.
-/

namespace Pixiecore.Api

variable {W : Type}

theorem elems_of_getElem? {w : World W} {s : Slice} {xs : List Bytes}
    (here : w.arrays[s.arr]? = some xs) : w.elems s = xs := by
  rw [World.elems, List.getD_eq_getElem?_getD, here]
  rfl

theorem getD_append_cons (done todo : List Bytes) (x : Bytes) :
    (done ++ x :: todo).getD done.length [] = x := by
  rw [List.getD_eq_getElem?_getD, List.getElem?_append_right (Nat.le_refl _), Nat.sub_self]
  rfl

/-- Reading a slice from where `done` ends gives the rest of its array. -/
theorem run_readElems (out : Outside W) (box : Secretbox) (key : Key) (s : Slice)
    (done todo : List Bytes) (w : World W) (here : w.arrays[s.arr]? = some (done ++ todo)) :
    ((readElems s (List.range' done.length todo.length)).run (answer out box key) w).2 =
      (todo, w) := by
  induction todo generalizing done with
  | nil => rfl
  | cons x todo ih =>
    have all := elems_of_getElem? here
    have rest := ih (done ++ [x]) (by rw [here, List.append_assoc]; rfl)
    rw [List.length_append, List.length_singleton] at rest
    rw [List.length_cons, List.range'_succ]
    simp only [readElems, index, Prog.run_bind, Prog.run_ask1, answer, all,
      getD_append_cons, rest, Prog.run_pure]

end Pixiecore.Api
