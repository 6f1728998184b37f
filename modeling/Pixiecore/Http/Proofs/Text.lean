import Pixiecore.Http.Server

/-!
# The text of a configuration

Which files a configuration names, said of the text itself. References have neither newlines nor
spaces nor commas, whatever the IDs are, so nothing in the text can be taken for part of one.
-/

namespace Pixiecore.Http

/-! ## References -/

/-- All bytes of a reference come after the comma, so there are no newlines, spaces or commas. -/
theorem not_mem_fileRef (id : Bytes) {c : UInt8} (special : c ≤ 44) : c ∉ fileRef id := by
  intro member
  have after : 44 < c := by
    rcases List.mem_append.mp member with front | encoded
    · rcases List.mem_pair.mp front with rfl | rfl
      · decide
      · decide
    · exact Base64.lt_of_mem_encode encoded
  exact absurd special (UInt8.not_le.mpr after)

theorem fileRef_ne_nil (id : Bytes) : fileRef id ≠ [] := List.cons_ne_nil _ _

/-! ## The lines around them -/

/-- The limerick, with `SAY` in front of each line. -/
def sayLines : Bytes := ascii "SAY " ++ replaceByte limerick 10 (10 :: ascii "SAY ")

theorem linuxConfig_eq (kernel : Bytes) (initrd : List Bytes) (cmdline : Bytes) :
    linuxConfig kernel initrd cmdline =
      [] ++ 10 :: (sayLines ++ 10 :: (ascii "DEFAULT linux" ++ 10 :: (ascii "LABEL linux" ++
        10 :: ((ascii "LINUX " ++ kernel) ++ 10 :: ((ascii "APPEND initrd=" ++
          (join (ascii ",") initrd ++ 32 :: cmdline)) ++ [10]))))) := by
  have say : ascii "\nSAY " = 10 :: ascii "SAY " := by decide
  have linux : ascii "\nDEFAULT linux\nLABEL linux\nLINUX " =
      10 :: (ascii "DEFAULT linux" ++ 10 :: (ascii "LABEL linux" ++ 10 :: ascii "LINUX ")) := by
    decide
  have append : ascii "\nAPPEND initrd=" = 10 :: ascii "APPEND initrd=" := by decide
  have space : ascii " " = [32] := by decide
  have newline : ascii "\n" = [10] := by decide
  simp only [linuxConfig, say, linux, append, space, newline, sayLines, List.append_assoc,
    List.cons_append, List.nil_append]

theorem say_of_mem_sayLines {line : Bytes} (member : line ∈ sayLines.splitOn 10) :
    ascii "SAY " <+: line := by
  have plain : (10 : UInt8) ∉ ascii "SAY " := by decide
  exact starts_of_mem_splitOn_replaceByte plain plain (List.prefix_refl _) member

/-- The configuration names one kernel and these initrds, in this order, and ends with the command
line. Nothing in front of that names a file, and no reference can be taken for two. -/
structure Names (cfg kernel : Bytes) (initrds : List Bytes) (cmdline : Bytes) : Prop where
  text : ∃ front, cfg = front ++ ascii "\nLINUX " ++ kernel ++ ascii "\nAPPEND initrd=" ++
      List.intercalate (ascii ",") initrds ++ ascii " " ++ cmdline ++ ascii "\n" ∧
    ∀ line ∈ front.splitOn 10, line = [] ∨ ascii "SAY " <+: line ∨
      line = ascii "DEFAULT linux" ∨ line = ascii "LABEL linux"
  proper : ∀ ref ∈ kernel :: initrds, ref ≠ []
  plain : ∀ ref ∈ kernel :: initrds, (10 : UInt8) ∉ ref ∧ (32 : UInt8) ∉ ref ∧ (44 : UInt8) ∉ ref

theorem names_linuxConfig (kernel : Bytes) (ids : List Bytes) (cmdline : Bytes) :
    Names (linuxConfig (fileRef kernel) (ids.map fileRef) cmdline) (fileRef kernel)
      (ids.map fileRef) cmdline := by
  have refs : ∀ ref ∈ fileRef kernel :: ids.map fileRef, ∃ id, ref = fileRef id := by
    intro ref member
    rcases List.mem_cons.mp member with rfl | among
    · exact ⟨kernel, rfl⟩
    · obtain ⟨id, _, rfl⟩ := List.mem_map.mp among
      exact ⟨id, rfl⟩
  refine ⟨⟨10 :: (sayLines ++ 10 :: (ascii "DEFAULT linux" ++ 10 :: ascii "LABEL linux")), ?_, ?_⟩,
    ?_, ?_⟩
  · have linux : ascii "\nLINUX " = 10 :: ascii "LINUX " := by decide
    have append : ascii "\nAPPEND initrd=" = 10 :: ascii "APPEND initrd=" := by decide
    have space : ascii " " = [32] := by decide
    have newline : ascii "\n" = [10] := by decide
    simp only [linuxConfig_eq, linux, append, space, newline, join, List.append_assoc,
      List.cons_append, List.nil_append]
  · intro line member
    have default : (10 : UInt8) ∉ ascii "DEFAULT linux" := by decide
    have label : (10 : UInt8) ∉ ascii "LABEL linux" := by decide
    rw [← List.nil_append (10 :: _), List.splitOn_append_cons_self_of_not_mem List.not_mem_nil,
      List.splitOn_append_cons_self, List.splitOn_append_cons_self_of_not_mem default,
      List.splitOn_eq_singleton label] at member
    rcases List.mem_cons.mp member with empty | rest
    · exact .inl empty
    · rcases List.mem_append.mp rest with say | last
      · exact .inr (.inl (say_of_mem_sayLines say))
      · exact .inr (.inr (List.mem_pair.mp last))
  · intro ref member
    obtain ⟨id, rfl⟩ := refs ref member
    exact fileRef_ne_nil id
  · intro ref member
    obtain ⟨id, rfl⟩ := refs ref member
    exact ⟨not_mem_fileRef id (by decide), not_mem_fileRef id (by decide),
      not_mem_fileRef id (by decide)⟩

end Pixiecore.Http
