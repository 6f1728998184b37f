import Pixiecore.Misc.Bytes

/-!
# Strings and paths

The few functions on strings that are needed, on the bytes of the strings.
-/

namespace Pixiecore

/-- `/`. -/
def slash : UInt8 := 47

/-- `filepath.Base`: the last element of a path, without trailing slashes. -/
def base (path : Bytes) : Bytes :=
  if path = [] then ascii "."
  else
    let name := (path.reverse.dropWhile (· == slash)).takeWhile (· != slash)
    if name = [] then [slash] else name.reverse

/-- `strings.Replace` of every occurrence of a single byte. -/
def replaceByte (s : Bytes) (old : UInt8) (new : Bytes) : Bytes :=
  s.flatMap (fun c => if c = old then new else [c])

/-- `strings.Join`. -/
def join (sep : Bytes) (xs : List Bytes) : Bytes := sep.intercalate xs

theorem mem_join {sep : Bytes} {xs : List Bytes} {c : UInt8} (member : c ∈ join sep xs) :
    c ∈ sep ∨ ∃ x ∈ xs, c ∈ x := by
  induction xs with
  | nil => cases member
  | cons x xs ih =>
    cases xs with
    | nil => exact .inr ⟨x, List.mem_singleton_self x, by simpa [join] using member⟩
    | cons y ys =>
      rw [join, List.intercalate_cons_cons, List.append_assoc, List.mem_append,
        List.mem_append] at member
      rcases member with first | between | later
      · exact .inr ⟨x, List.mem_cons_self, first⟩
      · exact .inl between
      · rcases ih later with between | ⟨z, among, inside⟩
        · exact .inl between
        · exact .inr ⟨z, List.mem_cons_of_mem x among, inside⟩

/-! ## Pieces -/

/-- No piece has what was split at. -/
theorem not_mem_of_mem_splitOn {x : UInt8} {s piece : Bytes} (member : piece ∈ s.splitOn x) :
    x ∉ piece := by
  induction s generalizing piece with
  | nil =>
    rw [List.splitOn_nil, List.mem_singleton] at member
    rw [member]
    exact List.not_mem_nil
  | cons c s ih =>
    rw [List.splitOn_cons_eq_if_modifyHead] at member
    split at member
    · rcases List.mem_cons.mp member with rfl | later
      · exact List.not_mem_nil
      · exact ih later
    · next other =>
      cases rest : s.splitOn x with
      | nil => exact absurd rest (List.splitOn_ne_nil x s)
      | cons first pieces =>
        rw [rest] at member
        rcases List.mem_cons.mp member with rfl | later
        · rw [List.mem_cons, not_or]
          refine ⟨fun same => other (beq_iff_eq.mpr same.symm), ih ?_⟩
          rw [rest]
          exact List.mem_cons_self
        · apply ih
          rw [rest]
          exact List.mem_cons_of_mem first later

/-- If every `x` is replaced by itself and a word, every piece starts with the word, as long as
the first one does. -/
theorem starts_of_mem_splitOn_replaceByte {x : UInt8} {word start s piece : Bytes}
    (plain : x ∉ word) (plain' : x ∉ start) (starts : word <+: start)
    (member : piece ∈ (start ++ replaceByte s x (x :: word)).splitOn x) : word <+: piece := by
  induction s generalizing start with
  | nil =>
    rw [replaceByte, List.flatMap_nil, List.append_nil, List.splitOn_eq_singleton plain',
      List.mem_singleton] at member
    rwa [member]
  | cons c s ih =>
    by_cases isX : c = x
    · have split : start ++ replaceByte (c :: s) x (x :: word) =
          start ++ x :: (word ++ replaceByte s x (x :: word)) := by
        rw [replaceByte, List.flatMap_cons, if_pos isX]
        rfl
      rw [split, List.splitOn_append_cons_self_of_not_mem plain'] at member
      rcases List.mem_cons.mp member with rfl | later
      · exact starts
      · exact ih plain (List.prefix_refl word) later
    · have longer : start ++ replaceByte (c :: s) x (x :: word) =
          start ++ [c] ++ replaceByte s x (x :: word) := by
        rw [replaceByte, List.flatMap_cons, if_neg isX, ← List.append_assoc]
        rfl
      rw [longer] at member
      refine ih ?_ (starts.trans (List.prefix_append start [c])) member
      rw [List.mem_append, List.mem_singleton, not_or]
      exact ⟨plain', fun same => isX same.symm⟩

/-! ## Paths -/

/-- The last element of a path that ends with a proper name. -/
theorem base_append (dir name : Bytes) (nonempty : name ≠ []) (plain : slash ∉ name) :
    base (dir ++ [slash] ++ name) = name := by
  have proper : ∀ c ∈ name.reverse, (c != slash) = true := by
    intro c member
    refine bne_iff_ne.mpr ?_
    rintro rfl
    exact plain (List.mem_reverse.mp member)
  obtain ⟨last, rest, flipped⟩ := List.exists_cons_of_ne_nil (List.reverse_ne_nil_iff.mpr nonempty)
  have kept : (name.reverse ++ slash :: dir.reverse).dropWhile (· == slash) =
      name.reverse ++ slash :: dir.reverse := by
    have first := proper last (by rw [flipped]; exact List.mem_cons_self)
    rw [flipped, List.cons_append, List.dropWhile_cons_of_neg]
    rw [beq_iff_eq]
    exact bne_iff_ne.mp first
  have path : dir ++ [slash] ++ name ≠ [] := by simp
  have turned : (dir ++ [slash] ++ name).reverse = name.reverse ++ slash :: dir.reverse := by simp
  rw [base, if_neg path, turned, kept, List.takeWhile_append_of_pos proper,
    List.takeWhile_cons_of_neg (by simp), List.append_nil]
  simp only [List.reverse_eq_nil_iff, if_neg nonempty, List.reverse_reverse]

example : base (ascii "/pxelinux.cfg/01-00-16-3e-00-00-01") = ascii "01-00-16-3e-00-00-01" := by
  decide

end Pixiecore
