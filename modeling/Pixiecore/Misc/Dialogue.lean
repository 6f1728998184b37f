import Pixiecore.Misc.Shared

/-!
# Programs against a relation of answers

`Ends ok p post` is total correctness of a program whose environment may answer in several
ways: whatever it asks has an answer that `ok` allows, and with every such answer it goes on to a
result that satisfies `post`. The rules follow the shape of the program.
-/

namespace Pixiecore.Prog

variable {Q : Type} {A : Q → Type} {α β : Type}

/-- Every question has an answer, and with any of them the program ends with `post`. -/
def Ends (ok : (q : Q) → A q → Prop) : Prog Q A α → (α → Prop) → Prop
  | ret a, post => post a
  | ask q k, post => (∃ x, ok q x) ∧ ∀ x, ok q x → Ends ok (k x) post

variable {ok : (q : Q) → A q → Prop} {post post' : α → Prop}

theorem Ends.bind {p : Prog Q A α} {f : α → Prog Q A β} {goal : β → Prop}
    (first : Ends ok p post) (second : ∀ a, post a → Ends ok (f a) goal) :
    Ends ok (p >>= f) goal := by
  show Ends ok (p.bind f) goal
  induction p with
  | ret a => exact second a first
  | ask q k ih => exact ⟨first.1, fun x allowed => ih x (first.2 x allowed)⟩

end Pixiecore.Prog
