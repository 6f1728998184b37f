import Mathlib.Data.List.Basic
import Pixiecore.Misc.Transition

/-!
# Stop-and-wait over channels that keep the order

A sender that transmits numbered packets one at a time and a receiver that accepts them in
order, with a queue in either direction. A queue may lose and repeat what is in it, but does
not reorder it. Then the two sides only ever see the number they expect and the one before
it, so that it is enough if numbers that follow each other can be told apart.
-/

namespace Pixiecore.InOrder

/-! ## Queues -/

/-- One element of a queue is lost or repeated. -/
inductive Mangle {α : Type*} : List α → List α → Prop
  | lost (front : List α) (x : α) (back : List α) : Mangle (front ++ x :: back) (front ++ back)
  | repeated (front : List α) (x : α) (back : List α) :
      Mangle (front ++ x :: back) (front ++ x :: x :: back)

section Mangle

variable {α β : Type*} {l l' : List α}

theorem Mangle.subset (h : Mangle l l') : l' ⊆ l := by
  cases h with
  | lost front x back =>
    intro y member
    rcases List.mem_append.mp member with first | last
    · exact List.mem_append_left _ first
    · exact List.mem_append_right _ (List.mem_cons_of_mem x last)
  | repeated front x back =>
    intro y member
    rcases List.mem_append.mp member with first | last
    · exact List.mem_append_left _ first
    · rcases List.mem_cons.mp last with rfl | last
      · exact List.mem_append_right _ List.mem_cons_self
      · exact List.mem_append_right _ last

/-- An order that a queue keeps it still keeps when it is mangled. -/
theorem Mangle.pairwise {r : α → α → Prop} (self : ∀ x, r x x) (h : Mangle l l')
    (sorted : l.Pairwise r) : l'.Pairwise r := by
  cases h with
  | lost front x back =>
    exact sorted.sublist (List.Sublist.append_left (List.sublist_cons_self x back) front)
  | repeated front x back =>
    rw [List.pairwise_append, List.pairwise_cons] at sorted ⊢
    obtain ⟨first, last, across⟩ := sorted
    refine ⟨first, ⟨?_, List.pairwise_cons.mpr last⟩, ?_⟩
    · intro y member
      rcases List.mem_cons.mp member with rfl | member
      · exact self y
      · exact last.1 y member
    · intro a ha b hb
      rcases List.mem_cons.mp hb with rfl | hb
      · exact across a ha b List.mem_cons_self
      · exact across a ha b hb

/-- What happens to a queue of images happens to the queue behind it. -/
theorem Mangle.of_map {f : α → β} {m : List β} (h : Mangle (l.map f) m) :
    ∃ l', Mangle l l' ∧ m = l'.map f := by
  generalize same : l.map f = ms at h
  cases h with
  | lost front y back =>
    obtain ⟨front', rest, rfl, rfl, tail⟩ := List.map_eq_append_iff.mp same
    obtain ⟨x, back', rfl, rfl, rfl⟩ := List.map_eq_cons_iff.mp tail
    exact ⟨front' ++ back', Mangle.lost front' x back', List.map_append.symm⟩
  | repeated front y back =>
    obtain ⟨front', rest, rfl, rfl, tail⟩ := List.map_eq_append_iff.mp same
    obtain ⟨x, back', rfl, rfl, rfl⟩ := List.map_eq_cons_iff.mp tail
    refine ⟨front' ++ x :: x :: back', Mangle.repeated front' x back', ?_⟩
    rw [List.map_append, List.map_cons, List.map_cons]

/-- What happens to a queue happens to its front or to its back. -/
theorem Mangle.of_append {l₁ l₂ m : List α} (h : Mangle (l₁ ++ l₂) m) :
    (∃ l', Mangle l₁ l' ∧ m = l' ++ l₂) ∨ (∃ l', Mangle l₂ l' ∧ m = l₁ ++ l') := by
  generalize same : l₁ ++ l₂ = l at h
  cases h with
  | lost front x back =>
    rcases List.append_eq_append_iff.mp same with ⟨mid, rfl, rfl⟩ | ⟨mid, rfl, rest⟩
    · exact Or.inr ⟨mid ++ back, Mangle.lost mid x back, List.append_assoc ..⟩
    · cases mid with
      | nil =>
        rw [List.nil_append] at rest
        subst rest
        exact Or.inr ⟨back, Mangle.lost [] x back, by rw [List.append_nil]⟩
      | cons y mid =>
        obtain ⟨rfl, rfl⟩ := List.cons.inj rest
        exact Or.inl ⟨front ++ mid, Mangle.lost front x mid, (List.append_assoc ..).symm⟩
  | repeated front x back =>
    rcases List.append_eq_append_iff.mp same with ⟨mid, rfl, rfl⟩ | ⟨mid, rfl, rest⟩
    · exact Or.inr ⟨mid ++ x :: x :: back, Mangle.repeated mid x back, List.append_assoc ..⟩
    · cases mid with
      | nil =>
        rw [List.nil_append] at rest
        subst rest
        exact Or.inr ⟨x :: x :: back, Mangle.repeated [] x back, by rw [List.append_nil]⟩
      | cons y mid =>
        obtain ⟨rfl, rfl⟩ := List.cons.inj rest
        exact Or.inl ⟨front ++ x :: x :: mid, Mangle.repeated front x mid,
          (List.append_assoc front (x :: x :: mid) l₂).symm⟩

end Mangle

/-! ## The protocol -/

/-- The packet being sent, the packet expected, and the numbers in either queue, oldest first. -/
structure Config where
  cur : Nat
  got : Nat
  data : List Nat
  acks : List Nat

/-- Before packet `first`, with nothing sent. -/
def Config.start (first : Nat) : Config := ⟨first, first, [], []⟩

inductive Step : Config → Config → Prop
  /-- The current packet is sent, for the first time or again. -/
  | transmit (c : Config) : Step c { c with data := c.data ++ [c.cur] }
  /-- An acknowledgement of the current packet arrives. -/
  | advance (cur got : Nat) (data acks : List Nat) :
      Step ⟨cur, got, data, cur :: acks⟩ ⟨cur + 1, got, data, acks⟩
  /-- Another acknowledgement arrives, or one that nobody waits for. -/
  | ignore (cur got i : Nat) (data acks : List Nat) :
      Step ⟨cur, got, data, i :: acks⟩ ⟨cur, got, data, acks⟩
  /-- The expected packet arrives. -/
  | accept (cur got : Nat) (data acks : List Nat) :
      Step ⟨cur, got, got :: data, acks⟩ ⟨cur, got + 1, data, acks ++ [got]⟩
  /-- An older packet arrives, and is acknowledged again. -/
  | reack (cur got i : Nat) (data acks : List Nat) (older : i < got) :
      Step ⟨cur, got, i :: data, acks⟩ ⟨cur, got, data, acks ++ [i]⟩
  /-- A packet arrives that nobody waits for. -/
  | discard (cur got i : Nat) (data acks : List Nat) :
      Step ⟨cur, got, i :: data, acks⟩ ⟨cur, got, data, acks⟩
  | mangleData (c : Config) (data : List Nat) (h : Mangle c.data data) : Step c { c with data }
  | mangleAcks (c : Config) (acks : List Nat) (h : Mangle c.acks acks) : Step c { c with acks }

/-- The sender is never ahead of the receiver and at most one packet behind it, and the queues
hold, in order, only the two numbers that this leaves. -/
structure Inv (c : Config) : Prop where
  behind : c.cur ≤ c.got
  ahead : c.got ≤ c.cur + 1
  data : ∀ i ∈ c.data, c.got ≤ i + 1 ∧ i ≤ c.cur
  acks : ∀ i ∈ c.acks, c.cur ≤ i + 1 ∧ i < c.got
  dataSorted : c.data.Pairwise (· ≤ ·)
  acksSorted : c.acks.Pairwise (· ≤ ·)

theorem inv_start (first : Nat) : Inv (Config.start first) :=
  ⟨Nat.le_refl first, Nat.le_succ first, fun _ h => absurd h List.not_mem_nil,
    fun _ h => absurd h List.not_mem_nil, List.Pairwise.nil, List.Pairwise.nil⟩

theorem pairwise_concat {l : List Nat} {n : Nat} (sorted : l.Pairwise (· ≤ ·))
    (last : ∀ i ∈ l, i ≤ n) : (l ++ [n]).Pairwise (· ≤ ·) := by
  rw [List.pairwise_append]
  refine ⟨sorted, List.pairwise_singleton _ _, ?_⟩
  intro i member j single
  rw [List.mem_singleton.mp single]
  exact last i member

theorem inv_step (c c' : Config) (inv : Inv c) (step : Step c c') : Inv c' := by
  obtain ⟨behind, ahead, data, acks, dataSorted, acksSorted⟩ := inv
  cases step with
  | transmit =>
    refine ⟨behind, ahead, ?_, acks, pairwise_concat dataSorted (fun i h => (data i h).2),
      acksSorted⟩
    refine List.forall_mem_append.mpr ⟨data, fun i single => ?_⟩
    rw [List.mem_singleton.mp single]
    exact ⟨ahead, Nat.le_refl _⟩
  | advance cur got ds as =>
    have here := acks cur List.mem_cons_self
    rw [List.pairwise_cons] at acksSorted
    refine ⟨here.2, by simp only at *; omega, fun i h => ?_, fun i h => ?_, dataSorted,
      acksSorted.2⟩
    · have := data i h
      simp only at *
      omega
    · have := acks i (List.mem_cons_of_mem cur h)
      have := acksSorted.1 i h
      simp only at *
      omega
  | ignore cur got i ds as =>
    exact ⟨behind, ahead, data, fun j h => acks j (List.mem_cons_of_mem i h), dataSorted,
      acksSorted.of_cons⟩
  | accept cur got ds as =>
    have here := data got List.mem_cons_self
    rw [List.pairwise_cons] at dataSorted
    refine ⟨by simp only at *; omega, by simp only at *; omega, fun i h => ?_, ?_, dataSorted.2,
      pairwise_concat acksSorted (fun i h => Nat.le_of_lt (acks i h).2)⟩
    · have := data i (List.mem_cons_of_mem got h)
      have := dataSorted.1 i h
      simp only at *
      omega
    · refine List.forall_mem_append.mpr ⟨fun i h => ?_, fun i single => ?_⟩
      · have := acks i h
        simp only at *
        omega
      · rw [List.mem_singleton.mp single]
        simp only at *
        omega
  | reack cur got i ds as older =>
    have here := data i List.mem_cons_self
    refine ⟨behind, ahead, fun j h => data j (List.mem_cons_of_mem i h), ?_, dataSorted.of_cons,
      pairwise_concat acksSorted (fun j h => ?_)⟩
    · refine List.forall_mem_append.mpr ⟨acks, fun j single => ?_⟩
      rw [List.mem_singleton.mp single]
      simp only at *
      omega
    · have := acks j h
      simp only at *
      omega
  | discard cur got i ds as =>
    exact ⟨behind, ahead, fun j h => data j (List.mem_cons_of_mem i h), acks, dataSorted.of_cons,
      acksSorted⟩
  | mangleData _ ds h =>
    exact ⟨behind, ahead, fun i member => data i (h.subset member), acks,
      h.pairwise Nat.le_refl dataSorted, acksSorted⟩
  | mangleAcks _ as h =>
    exact ⟨behind, ahead, data, fun i member => acks i (h.subset member), dataSorted,
      h.pairwise Nat.le_refl acksSorted⟩

/-- The receiver only sees the packet it expects and the one before it. -/
theorem Inv.data_cases {c : Config} (inv : Inv c) {i : Nat} (h : i ∈ c.data) :
    i = c.got ∨ i + 1 = c.got := by
  have := inv.data i h
  have := inv.behind
  omega

/-- The sender only sees acknowledgements of its packet and of the one before it. -/
theorem Inv.acks_cases {c : Config} (inv : Inv c) {i : Nat} (h : i ∈ c.acks) :
    i = c.cur ∨ i + 1 = c.cur := by
  have := inv.acks i h
  have := inv.ahead
  omega

end Pixiecore.InOrder
