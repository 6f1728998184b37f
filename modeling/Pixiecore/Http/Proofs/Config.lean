import Pixiecore.Http.Proofs.Static

/-!
# What a configuration says

A configuration is text, with a directive on each line, and strings of three kinds go into it:
the reference to the kernel, the references to the initrds and the command line. `readConfig`
takes it apart again. References have neither newlines nor spaces nor commas, whatever the IDs
are; the command line is inserted as it is.
-/

namespace Pixiecore.Http

open Api

/-! ## Reading a configuration -/

/-- What there is to boot. -/
structure BootConfig where
  kernel : Bytes
  initrd : List Bytes
  cmdline : Bytes
  deriving DecidableEq, Repr

/-- The ID that a reference stands for. -/
def readRef (ref : Bytes) : Option Bytes := (ref.dropPrefix? (ascii "f/")).bind Base64.decode

/-- A list of references with commas in between. No text is no reference. -/
def readRefs (text : Bytes) : Option (List Bytes) :=
  if text = [] then some [] else (text.splitOn 44).mapM readRef

/-- The references up to the first space, and the rest of the line. -/
def readAppend (arg : Bytes) : Option (List Bytes × Bytes) :=
  match arg.dropWhile (· != 32) with
  | [] => none
  | _ :: cmdline => do
    let initrd ← readRefs (arg.takeWhile (· != 32))
    some (initrd, cmdline)

/-- The lines that are not empty. -/
def directives (cfg : Bytes) : List Bytes := (cfg.splitOn 10).filter (· != [])

/-- The four directives after any number of `SAY` lines, and nothing else. -/
def readConfig (cfg : Bytes) : Option BootConfig :=
  match (directives cfg).dropWhile (fun line => (ascii "SAY ").isPrefixOf line) with
  | [default, label, linux, append] =>
    if default = ascii "DEFAULT linux" ∧ label = ascii "LABEL linux" then do
      let ref ← linux.dropPrefix? (ascii "LINUX ")
      let kernel ← readRef ref
      let arg ← append.dropPrefix? (ascii "APPEND initrd=")
      let (initrd, cmdline) ← readAppend arg
      some { kernel, initrd, cmdline }
    else none
  | _ => none

/-- No line has a newline, and so no command line that is read has one. -/
theorem newline_not_mem_cmdline {cfg : Bytes} {c : BootConfig} (read : readConfig cfg = some c) :
    (10 : UInt8) ∉ c.cmdline := by
  rw [readConfig] at read
  split at read
  · next default label linux append found =>
    have line : append ∈ cfg.splitOn 10 := by
      have last : append ∈ [default, label, linux, append] := by simp
      rw [← found] at last
      exact List.mem_of_mem_filter ((List.dropWhile_suffix _).subset last)
    have plain := not_mem_of_mem_splitOn line
    rw [Option.ite_none_right_eq_some] at read
    obtain ⟨ref, _, read⟩ := Option.bind_eq_some_iff.mp read.2
    obtain ⟨kernel, _, read⟩ := Option.bind_eq_some_iff.mp read
    obtain ⟨arg, isArg, read⟩ := Option.bind_eq_some_iff.mp read
    obtain ⟨⟨initrd, cmdline⟩, appended, read⟩ := Option.bind_eq_some_iff.mp read
    obtain ⟨word, whole, _⟩ := List.dropPrefix?_eq_some_iff.mp isArg
    cases read
    rw [readAppend] at appended
    split at appended
    · cases appended
    · next space rest behind =>
      obtain ⟨refs, _, appended⟩ := Option.bind_eq_some_iff.mp appended
      cases appended
      intro member
      apply plain
      rw [whole]
      apply List.mem_append_right
      apply (List.dropWhile_suffix (· != 32)).subset
      rw [behind]
      exact List.mem_cons_of_mem space member
  · cases read

/-! ## References -/

theorem readRef_fileRef (id : Bytes) : readRef (fileRef id) = some id := by
  rw [readRef, fileRef, List.dropPrefix?_append_of_beq _ (beq_self_eq_true _), Option.bind_some,
    Base64.decode_encode]

theorem mapM_readRef (ids : List Bytes) : (ids.map fileRef).mapM readRef = some ids := by
  induction ids with
  | nil => rfl
  | cons id ids ih => simp [List.mapM_cons, readRef_fileRef, ih]

theorem readRefs_join (ids : List Bytes) :
    readRefs (join (ascii ",") (ids.map fileRef)) = some ids := by
  cases ids with
  | nil => rfl
  | cons id ids =>
    have split : (join (ascii ",") ((id :: ids).map fileRef)).splitOn 44 =
        (id :: ids).map fileRef := by
      apply List.splitOn_intercalate
      · intro ref member
        obtain ⟨x, _, rfl⟩ := List.mem_map.mp member
        exact not_mem_fileRef x (UInt8.le_refl 44)
      · exact List.cons_ne_nil _ _
    have nonempty : join (ascii ",") ((id :: ids).map fileRef) ≠ [] := by
      intro empty
      rw [empty, List.splitOn_nil] at split
      cases (List.cons.inj split).1
    rw [readRefs, if_neg nonempty, split, mapM_readRef]

theorem not_mem_join_fileRef (ids : List Bytes) {c : UInt8} (special : c < 44) :
    c ∉ join (ascii ",") (ids.map fileRef) := by
  intro member
  rcases mem_join member with comma | ⟨ref, among, inside⟩
  · rw [List.mem_singleton.mp comma] at special
    exact UInt8.lt_irrefl 44 special
  · obtain ⟨id, _, rfl⟩ := List.mem_map.mp among
    exact not_mem_fileRef id (UInt8.le_of_lt special) inside

theorem readAppend_join (ids : List Bytes) (cmdline : Bytes) :
    readAppend (join (ascii ",") (ids.map fileRef) ++ 32 :: cmdline) = some (ids, cmdline) := by
  have noSpace : ∀ c ∈ join (ascii ",") (ids.map fileRef), (c != 32) = true := by
    intro c member
    refine bne_iff_ne.mpr ?_
    rintro rfl
    exact not_mem_join_fileRef ids (by decide) member
  simp only [readAppend, List.dropWhile_append_of_pos noSpace, List.takeWhile_append_of_pos noSpace,
    bne_self_eq_false, Bool.false_eq_true, not_false_eq_true, List.dropWhile_cons_of_neg,
    List.takeWhile_cons_of_neg, List.append_nil, readRefs_join, Option.bind_eq_bind,
    Option.bind_some]

/-! ## The configuration that is written -/

/-- The lines of the configuration, for a command line without newlines. -/
theorem directives_linuxConfig {kernel : Bytes} {ids : List Bytes} {cmdline : Bytes}
    (plain : (10 : UInt8) ∉ cmdline) :
    directives (linuxConfig (fileRef kernel) (ids.map fileRef) cmdline) =
      directives sayLines ++ [ascii "DEFAULT linux", ascii "LABEL linux",
        ascii "LINUX " ++ fileRef kernel,
        ascii "APPEND initrd=" ++ (join (ascii ",") (ids.map fileRef) ++ 32 :: cmdline)] := by
  have linux : (10 : UInt8) ∉ ascii "LINUX " ++ fileRef kernel := by
    rw [List.mem_append, not_or]
    exact ⟨by decide, not_mem_fileRef kernel (by decide)⟩
  have append : (10 : UInt8) ∉ ascii "APPEND initrd=" ++
      (join (ascii ",") (ids.map fileRef) ++ 32 :: cmdline) := by
    rw [List.mem_append, List.mem_append, List.mem_cons, not_or, not_or, not_or]
    exact ⟨by decide, not_mem_join_fileRef ids (by decide), by decide, plain⟩
  have default : (10 : UInt8) ∉ ascii "DEFAULT linux" := by decide
  have label : (10 : UInt8) ∉ ascii "LABEL linux" := by decide
  rw [directives, linuxConfig_eq, List.splitOn_append_cons_self_of_not_mem List.not_mem_nil,
    List.splitOn_append_cons_self, List.splitOn_append_cons_self_of_not_mem default,
    List.splitOn_append_cons_self_of_not_mem label, List.splitOn_append_cons_self_of_not_mem linux,
    List.splitOn_append_cons_self_of_not_mem append, List.splitOn_nil]
  have kept : ∀ {word : Bytes} (rest : Bytes) (lines : List Bytes), word ≠ [] →
      ((word ++ rest) :: lines).filter (· != []) = (word ++ rest) :: lines.filter (· != []) := by
    intro word rest lines nonempty
    exact List.filter_cons_of_pos (bne_iff_ne.mpr (List.append_ne_nil_of_left_ne_nil nonempty rest))
  rw [List.filter_cons_of_neg (by decide), List.filter_append, directives,
    List.filter_cons_of_pos (by decide), List.filter_cons_of_pos (by decide),
    kept _ _ (by decide), kept _ _ (by decide), List.filter_cons_of_neg (by decide),
    List.filter_nil]

theorem dropWhile_say (lines : List Bytes) :
    (directives sayLines ++ ascii "DEFAULT linux" :: lines).dropWhile
      (fun line => (ascii "SAY ").isPrefixOf line) = ascii "DEFAULT linux" :: lines := by
  have say : ∀ line ∈ directives sayLines, (ascii "SAY ").isPrefixOf line = true :=
    fun line member =>
      List.isPrefixOf_iff_prefix.mpr (say_of_mem_sayLines (List.mem_of_mem_filter member))
  rw [List.dropWhile_append_of_pos say, List.dropWhile_cons_of_neg (by decide)]

theorem readConfig_of_directives {cfg linux append ref arg kernel cmdline : Bytes}
    {initrd : List Bytes}
    (found : (directives cfg).dropWhile (fun line => (ascii "SAY ").isPrefixOf line) =
      [ascii "DEFAULT linux", ascii "LABEL linux", linux, append])
    (isRef : linux.dropPrefix? (ascii "LINUX ") = some ref) (isKernel : readRef ref = some kernel)
    (isArg : append.dropPrefix? (ascii "APPEND initrd=") = some arg)
    (appended : readAppend arg = some (initrd, cmdline)) :
    readConfig cfg = some ⟨kernel, initrd, cmdline⟩ := by
  simp only [readConfig, found, and_self, if_true, isRef, isKernel, isArg, appended,
    Option.bind_eq_bind, Option.bind_some]

/-- What was written can be read back if and only if there is no newline in the command line. -/
theorem readConfig_linuxConfig_iff (kernel : Bytes) (ids : List Bytes) (cmdline : Bytes) :
    readConfig (linuxConfig (fileRef kernel) (ids.map fileRef) cmdline) =
      some ⟨kernel, ids, cmdline⟩ ↔ (10 : UInt8) ∉ cmdline := by
  constructor
  · exact newline_not_mem_cmdline
  · intro plain
    have after : ∀ word rest : Bytes, (word ++ rest).dropPrefix? word = some rest :=
      fun word rest => List.dropPrefix?_append_of_beq rest (beq_self_eq_true word)
    have found := dropWhile_say [ascii "LABEL linux", ascii "LINUX " ++ fileRef kernel,
      ascii "APPEND initrd=" ++ (join (ascii ",") (ids.map fileRef) ++ 32 :: cmdline)]
    rw [← directives_linuxConfig plain] at found
    exact readConfig_of_directives found (after _ _) (readRef_fileRef kernel) (after _ _)
      (readAppend_join ids cmdline)

/-- What follows a newline in the command line is a directive of its own. -/
theorem mem_directives_of_newline (kernel : Bytes) (initrd : List Bytes) (front : Bytes)
    {line : Bytes} (plain : (10 : UInt8) ∉ line) (nonempty : line ≠ []) :
    line ∈ directives (linuxConfig kernel initrd (front ++ 10 :: line)) := by
  have newline : ascii "\n" = [10] := rfl
  rw [directives, linuxConfig, newline, ← List.append_assoc, List.append_assoc (_ ++ front),
    List.cons_append, List.splitOn_append_cons_self,
    List.splitOn_append_cons_self_of_not_mem plain]
  apply List.mem_filter.mpr
  exact ⟨List.mem_append_right _ List.mem_cons_self, bne_iff_ne.mpr nonempty⟩

/-! ## The handler -/

section Run

variable {W : Type} (out : Outside W) (box : Secretbox) (key : Key)

/-- For a machine that is to boot, the configuration says what the booter's spec says, if and
only if there is no newline in its command line. -/
theorem pxelinuxConfig_says_iff (s : Server) (path mac : Bytes) (w w' : World W) (spec : BootSpec)
    (ids : List Bytes) (named : (ascii "01-").isPrefixOf (base path) = true)
    (parsed : parseMAC ((base path).drop 3) = some mac)
    (booted : ((s.booter.bootSpec mac).run (answer out box key) w).2 = (.ok spec, w'))
    (here : w'.arrays[spec.initrd.arr]? = some ids) (whole : spec.initrd.len = ids.length) :
    readConfig ((s.serve (.pxelinuxConfig path)).run (answer out box key) w).2.1.body =
      some ⟨spec.kernel, ids, spec.cmdline⟩ ↔ (10 : UInt8) ∉ spec.cmdline := by
  have goes : s.serve (.pxelinuxConfig path) = s.configFor mac := pxelinuxConfig_eq s named parsed
  rw [goes, run_configFor_of_bootSpec out box key s mac booted here whole]
  exact readConfig_linuxConfig_iff spec.kernel ids spec.cmdline

end Run

/-! ## Two command lines -/

/-- A static server with two initrds and the given command line, when it has just been
started. -/
def startWith (cmdline : Bytes) : List Asked × StaticBooter × World Nat :=
  (StaticBooter.new id (ascii "/vmlinuz") twoInitrds cmdline).run
    (answer countingOutside clearBox zeroKey) ⟨0, []⟩

/-- The request of a machine. -/
def configPath : Bytes := ascii "/pxelinux.cfg/01-00-16-3e-00-00-01"

/-- The configuration that the machine gets from this server. -/
def configWith (cmdline : Bytes) : Bytes :=
  (((Server.mk (startWith cmdline).2.1.booter []).serve (.pxelinuxConfig configPath)).run
    (answer countingOutside clearBox zeroKey) (startWith cmdline).2.2).2.1.body

theorem intact_startWith (cmdline : Bytes) :
    Intact (startWith cmdline).2.1 (startWith cmdline).2.2 := ⟨rfl, rfl⟩

theorem initrdIDs_two : StaticBooter.initrdIDs 2 = [ascii "0", ascii "1"] := by decide +kernel

theorem configWith_eq (cmdline : Bytes) :
    configWith cmdline = linuxConfig (fileRef (ascii "kernel"))
      ([ascii "0", ascii "1"].map fileRef) cmdline := by
  have parsed :
      parseMAC ((base configPath).drop 3) = some [0x00, 0x16, 0x3e, 0x00, 0x00, 0x01] := by
    decide
  rw [configWith, Server.serve, pxelinuxConfig_eq _ (by decide) parsed,
    run_static_configFor countingOutside clearBox zeroKey (intact_startWith cmdline),
    ← initrdIDs_two]
  rfl

theorem pxelinuxConfig_says_quiet :
    readConfig (configWith (ascii "quiet")) =
      some ⟨ascii "kernel", [ascii "0", ascii "1"], ascii "quiet"⟩ := by
  have booted := run_static_bootSpec countingOutside clearBox zeroKey
    (intact_startWith (ascii "quiet")) [0x00, 0x16, 0x3e, 0x00, 0x00, 0x01]
  rw [← initrdIDs_two]
  exact (pxelinuxConfig_says_iff countingOutside clearBox zeroKey
    (Server.mk (startWith (ascii "quiet")).2.1.booter []) configPath
    [0x00, 0x16, 0x3e, 0x00, 0x00, 0x01] _ _ _ (StaticBooter.initrdIDs 2) (by decide) (by decide)
    booted rfl rfl).mpr (by decide)

/-- With a newline in the command line, what follows it is a directive. -/
theorem pxelinuxConfig_broken_by_newline :
    readConfig (configWith (ascii "quiet\nLOCALBOOT 0")) ≠
        some ⟨ascii "kernel", [ascii "0", ascii "1"], ascii "quiet\nLOCALBOOT 0"⟩ ∧
      ascii "LOCALBOOT 0" ∈ directives (configWith (ascii "quiet\nLOCALBOOT 0")) := by
  refine ⟨fun read => newline_not_mem_cmdline read (by decide), ?_⟩
  rw [configWith_eq]
  exact mem_directives_of_newline _ _ (ascii "quiet") (by decide) (by decide)

end Pixiecore.Http
