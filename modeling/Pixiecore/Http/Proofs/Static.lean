import Pixiecore.Api.Static
import Pixiecore.Http.Proofs.References

/-!
# References in static mode

With `staticBooter` every configuration refers to the configured files, by their indices, and
no request makes the server open any other file. `PxelinuxConfig` rewrites the slice of IDs
that it gets in place, so what carries the result is that the array the booter keeps is never
that slice (`Intact`), over any sequence of requests.
-/

namespace Pixiecore.Http

open Api

section Run

variable {W : Type} (out : Outside W) (box : Secretbox) (key : Key)

/-! ## The IDs -/

/-- The array of IDs is as the constructor made it. -/
structure Intact (b : StaticBooter) (w : World W) : Prop where
  here : w.arrays[b.spec.initrd.arr]? = some (StaticBooter.initrdIDs b.initrdPaths.list.length)
  whole : b.spec.initrd.len = (StaticBooter.initrdIDs b.initrdPaths.list.length).length

/-- New arrays, and writes to them, leave the IDs alone. -/
theorem Intact.of_prefix {b : StaticBooter} {w w' : World W} (intact : Intact b w)
    (grows : w.arrays <+: w'.arrays) : Intact b w' := by
  refine ⟨?_, intact.whole⟩
  obtain ⟨more, grown⟩ := grows
  have bound := (List.getElem?_eq_some_iff.mp intact.here).1
  rw [← grown, List.getElem?_append_left bound]
  exact intact.here

theorem run_new (quote : Bytes → Bytes) (kernelPath : Bytes) (initrdPaths : Strings)
    (cmdline : Bytes) (w : World W) :
    ((StaticBooter.new quote kernelPath initrdPaths cmdline).run (answer out box key) w).2 =
      (⟨quote, kernelPath, initrdPaths, ⟨ascii "kernel",
          ⟨w.arrays.length, (StaticBooter.initrdIDs initrdPaths.list.length).length⟩, cmdline⟩⟩,
        { w with arrays := w.arrays ++ [StaticBooter.initrdIDs initrdPaths.list.length] }) := by
  simp only [StaticBooter.new, makeSlice, Prog.run_bind, Prog.run_ask1, answer, Prog.run_pure]

theorem intact_new {quote : Bytes → Bytes} {kernelPath : Bytes} {initrdPaths : Strings}
    {cmdline : Bytes} {w w' : World W} {b : StaticBooter}
    (made : ((StaticBooter.new quote kernelPath initrdPaths cmdline).run
      (answer out box key) w).2 = (b, w')) : Intact b w' := by
  rw [run_new] at made
  obtain ⟨rfl, rfl⟩ := Prod.mk.inj made
  exact ⟨List.getElem?_concat_length, rfl⟩

/-- `BootSpec` returns a copy of the IDs. -/
theorem run_static_bootSpec {b : StaticBooter} {w : World W} (intact : Intact b w) (hw : Bytes) :
    ((b.bootSpec hw).run (answer out box key) w).2 =
      (.ok ⟨b.spec.kernel,
          ⟨w.arrays.length, (StaticBooter.initrdIDs b.initrdPaths.list.length).length⟩,
          b.spec.cmdline⟩,
        { w with arrays := w.arrays ++ [StaticBooter.initrdIDs b.initrdPaths.list.length] }) := by
  have ids := run_readElems out box key b.spec.initrd []
    (StaticBooter.initrdIDs b.initrdPaths.list.length) w intact.here
  rw [List.length_nil, ← List.range_eq_range', ← intact.whole] at ids
  simp only [StaticBooter.bootSpec, makeSlice, Prog.run_bind, ids, Prog.run_ask1, answer,
    Prog.run_pure]

/-! ## The handlers -/

/-- The configuration for any machine; what was rewritten is the copy. -/
theorem run_static_configFor {b : StaticBooter} {w : World W} (intact : Intact b w)
    (ldlinux mac : Bytes) :
    (((Server.mk b.booter ldlinux).configFor mac).run (answer out box key) w).2 =
      (⟨200, ascii "text/plain", linuxConfig (fileRef b.spec.kernel)
          ((StaticBooter.initrdIDs b.initrdPaths.list.length).map fileRef) b.spec.cmdline⟩,
        { w with arrays := w.arrays ++
            [(StaticBooter.initrdIDs b.initrdPaths.list.length).map fileRef] }) := by
  have config := run_configFor_of_bootSpec out box key (Server.mk b.booter ldlinux) mac
    (run_static_bootSpec out box key intact mac) List.getElem?_concat_length rfl
  rw [config]
  simp only [List.set_append_right _ _ (Nat.le_refl _), Nat.sub_self, List.set_cons_zero]

/-- The file that an ID stands for. -/
def fileOf (b : StaticBooter) (id : Bytes) : Option Bytes :=
  if id = ascii "kernel" then some b.kernelPath else (atoi id).bind b.initrdPath?

theorem initrdPath?_eq_some_iff {b : StaticBooter} {i : Int} {path : Bytes} :
    b.initrdPath? i = some path ↔ 0 ≤ i ∧ b.initrdPaths.list[i.toNat]? = some path := by
  rw [StaticBooter.initrdPath?, Option.ite_none_right_eq_some]
  constructor
  · intro ⟨range, found⟩
    exact ⟨range.1, found⟩
  · intro ⟨natural, found⟩
    have below := (List.getElem?_eq_some_iff.mp found).1
    exact ⟨⟨natural, by omega⟩, found⟩

/-- An ID of the constructor stands for the initrd of that index. -/
theorem fileOf_itoa {b : StaticBooter} {j : Nat} {path : Bytes}
    (found : b.initrdPaths.list[j]? = some path) : fileOf b (itoa j) = some path := by
  have below := (List.getElem?_eq_some_iff.mp found).1
  have fits := b.initrdPaths.fits
  have back : atoi (itoa j) = some (j : Int) := atoi_itoa j (by omega) (by omega)
  have other : itoa j ≠ ascii "kernel" := by
    intro same
    rw [same] at back
    cases back
  rw [fileOf, if_neg other, back, Option.bind_some, initrdPath?_eq_some_iff]
  exact ⟨by omega, found⟩

theorem fileOf_mem {b : StaticBooter} {id path : Bytes} (found : fileOf b id = some path) :
    path = b.kernelPath ∨ path ∈ b.initrdPaths.list := by
  rw [fileOf] at found
  split at found
  · exact .inl (Option.some.inj found).symm
  · obtain ⟨i, _, here⟩ := Option.bind_eq_some_iff.mp found
    exact .inr (List.mem_of_getElem? (initrdPath?_eq_some_iff.mp here).2)

/-- Nothing but the kernel's ID and the decimal integers below the number of initrds stands for
a file. -/
theorem fileOf_eq_none {b : StaticBooter} {id : Bytes} (noKernel : id ≠ ascii "kernel")
    (noIndex : ¬∃ i, Denotes id i ∧ 0 ≤ i ∧ i < b.initrdPaths.list.length) :
    fileOf b id = none := by
  rw [fileOf, if_neg noKernel, Option.bind_eq_none_iff]
  intro i parsed
  by_contra found
  obtain ⟨path, here⟩ := Option.ne_none_iff_exists'.mp found
  obtain ⟨natural, there⟩ := initrdPath?_eq_some_iff.mp here
  have below := (List.getElem?_eq_some_iff.mp there).1
  exact noIndex ⟨i, ((atoi_eq_some_iff id i).mp parsed).1, natural, by omega⟩

theorem run_openAs (path pretty : Bytes) (w : World W) :
    openedFiles ((StaticBooter.openAs path pretty).run (answer out box key) w).1 = [path] ∧
      ((StaticBooter.openAs path pretty).run (answer out box key) w).2.2.arrays = w.arrays := by
  simp only [StaticBooter.openAs, osOpen, Prog.run_bind, Prog.run_ask1, answer]
  rcases (out.openFile w.outside path).1 with err | f
  · exact ⟨rfl, rfl⟩
  · exact ⟨rfl, rfl⟩

/-- `File` of the booter opens what the ID stands for, or nothing and fails. -/
theorem run_static_file (b : StaticBooter) (id : Bytes) (w : World W) :
    openedFiles ((b.file id).run (answer out box key) w).1 = (fileOf b id).toList ∧
      ((b.file id).run (answer out box key) w).2.2.arrays = w.arrays ∧
      (fileOf b id = none → ∃ err, ((b.file id).run (answer out box key) w).2.1 = .error err) := by
  rw [fileOf, StaticBooter.file]
  split
  · have opened := run_openAs out box key b.kernelPath (ascii "kernel") w
    exact ⟨opened.1, opened.2, fun impossible => by cases impossible⟩
  · cases named : (atoi id).bind b.initrdPath? with
    | none => exact ⟨rfl, rfl, fun _ => ⟨_, rfl⟩⟩
    | some path =>
      have opened := run_openAs out box key path (ascii "initrd." ++ id) w
      exact ⟨opened.1, opened.2, fun impossible => by cases impossible⟩

/-- `File` of the server opens what the decoded ID stands for, or nothing and fails. -/
theorem run_file (b : StaticBooter) (ldlinux path : Bytes) (w : World W) :
    let served := ((Server.mk b.booter ldlinux).file path).run (answer out box key) w
    openedFiles served.1 = ((Base64.decode (base path)).bind (fileOf b)).toList ∧
      served.2.2.arrays = w.arrays ∧
      ((Base64.decode (base path)).bind (fileOf b) = none → 400 ≤ served.2.1.status) := by
  intro served
  simp only [served, Server.file]
  cases Base64.decode (base path) with
  | none => exact ⟨rfl, rfl, fun _ => Nat.le_refl 400⟩
  | some id =>
    obtain ⟨opened, arrays, fails⟩ := run_static_file out box key b id w
    simp only [Option.bind_some, Prog.run_bind]
    have same : (Server.mk b.booter ldlinux).booter.file id = b.file id := rfl
    rw [same]
    cases result : ((b.file id).run (answer out box key) w).2.1 with
    | error err =>
      rw [Prog.run_pure, List.append_nil]
      exact ⟨opened, arrays, fun _ => Nat.le_add_right 400 100⟩
    | ok opening =>
      rw [Prog.run_pure, List.append_nil]
      refine ⟨opened, arrays, fun unknown => ?_⟩
      obtain ⟨err, failed⟩ := fails unknown
      rw [failed] at result
      cases result

/-! ## Any sequence of requests -/

theorem pxelinuxConfig_cases (s : Server) (path : Bytes) :
    (∃ text, s.pxelinuxConfig path = pure (httpError text 400)) ∨
      ∃ mac, s.pxelinuxConfig path = s.configFor mac := by
  simp only [Server.pxelinuxConfig]
  split
  · split
    · exact .inl ⟨_, rfl⟩
    · exact .inr ⟨_, rfl⟩
  · exact .inl ⟨_, rfl⟩

theorem Intact.serve {b : StaticBooter} {w : World W} (intact : Intact b w) (ldlinux : Bytes)
    (r : Request) :
    Intact b (((Server.mk b.booter ldlinux).serve r).run (answer out box key) w).2.2 := by
  cases r with
  | ldlinux => exact intact
  | file path =>
    apply intact.of_prefix
    rw [Server.serve, (run_file out box key b ldlinux path w).2.1]
  | pxelinuxConfig path =>
    rw [Server.serve]
    rcases pxelinuxConfig_cases (Server.mk b.booter ldlinux) path with ⟨text, refused⟩ | ⟨mac, goes⟩
    · rw [refused]
      exact intact
    · rw [goes, run_static_configFor out box key intact ldlinux mac]
      exact intact.of_prefix (List.prefix_append _ _)

theorem Intact.serveAll {b : StaticBooter} {w : World W} (intact : Intact b w) (ldlinux : Bytes)
    (rs : List Request) :
    Intact b (Http.serveAll out box key (Server.mk b.booter ldlinux) w rs) := by
  induction rs generalizing w with
  | nil => exact intact
  | cons r rs ih => exact ih (intact.serve out box key ldlinux r)

/-- A request for the reference to an ID opens the file that it stands for. -/
theorem run_file_of_id (b : StaticBooter) (ldlinux : Bytes) {id path : Bytes} (w : World W)
    (nonempty : id ≠ []) (stands : fileOf b id = some path) :
    openedFiles (((Server.mk b.booter ldlinux).file (ascii "/" ++ fileRef id)).run
      (answer out box key) w).1 = [path] := by
  rw [(run_file out box key b ldlinux (ascii "/" ++ fileRef id) w).1, base_fileRef nonempty,
    Base64.decode_encode, Option.bind_some, stands]
  rfl

/-- The reference to the kernel. -/
theorem run_file_of_kernel (b : StaticBooter) (ldlinux : Bytes) (w : World W) :
    openedFiles (((Server.mk b.booter ldlinux).file (ascii "/" ++ fileRef (ascii "kernel"))).run
      (answer out box key) w).1 = [b.kernelPath] :=
  run_file_of_id out box key b ldlinux w (by decide) (if_pos rfl)

/-- The reference at an index of a configuration is to the file at that index. -/
theorem run_file_of_index (b : StaticBooter) (ldlinux : Bytes) (w : World W) {j : Nat}
    {ref path : Bytes}
    (here : ((StaticBooter.initrdIDs b.initrdPaths.list.length).map fileRef)[j]? = some ref)
    (there : b.initrdPaths.list[j]? = some path) :
    openedFiles (((Server.mk b.booter ldlinux).file (ascii "/" ++ ref)).run
      (answer out box key) w).1 = [path] := by
  have below := (List.getElem?_eq_some_iff.mp there).1
  rw [List.getElem?_map, StaticBooter.initrdIDs, List.getElem?_map, List.getElem?_range below,
    Option.map_some, Option.map_some] at here
  rw [← Option.some.inj here]
  exact run_file_of_id out box key b ldlinux w (decimal_ne_nil j) (fileOf_itoa there)

/-- What the server does for a path, whatever the world is like. -/
theorem run_file_any (b : StaticBooter) (ldlinux path : Bytes) (w : World W) :
    let served := ((Server.mk b.booter ldlinux).file path).run (answer out box key) w
    (∀ file ∈ openedFiles served.1, file = b.kernelPath ∨ file ∈ b.initrdPaths.list) ∧
      ((∀ id, Base64.decode (base path) = some id → id ≠ ascii "kernel" ∧
          ¬∃ i, Denotes id i ∧ 0 ≤ i ∧ i < b.initrdPaths.list.length) →
        400 ≤ served.2.1.status) := by
  intro served
  obtain ⟨files, _, fails⟩ := run_file out box key b ldlinux path w
  constructor
  · intro file member
    rw [files] at member
    obtain ⟨id, _, stands⟩ := Option.bind_eq_some_iff.mp (Option.mem_toList.mp member)
    exact fileOf_mem stands
  · intro neither
    apply fails
    rw [Option.bind_eq_none_iff]
    intro id decoded
    obtain ⟨noKernel, noIndex⟩ := neither id decoded
    exact fileOf_eq_none noKernel noIndex

/-- In static mode, whatever was requested before, a configuration is the same text, which names the
kernel and each initrd in order by references, and a request for a reference opens exactly that
file. No request opens a file that is not configured, and a request for any other ID fails. -/
theorem static_serves_configured_files (quote : Bytes → Bytes) (kernelPath : Bytes)
    (initrdPaths : Strings) (cmdline ldlinux : Bytes) (w : World W) :
    let made := (StaticBooter.new quote kernelPath initrdPaths cmdline).run (answer out box key) w
    let s := Server.mk made.2.1.booter ldlinux
    ∃ (kernel : Bytes) (initrds : List Bytes) (body : Bytes),
      Names body kernel initrds cmdline ∧ initrds.length = initrdPaths.list.length ∧
      ∀ (before : List Request),
        let now := serveAll out box key s made.2.2 before
        let response := fun r => ((s.serve r).run (answer out box key) now).2.1
        let opened := fun r => openedFiles ((s.serve r).run (answer out box key) now).1
        let config : Response := ⟨200, ascii "text/plain", body⟩
        (∀ path mac, (ascii "01-").isPrefixOf (base path) = true →
          parseMAC ((base path).drop 3) = some mac → response (.pxelinuxConfig path) = config) ∧
        (∀ path, (response (.pxelinuxConfig path)).status = 200 →
          response (.pxelinuxConfig path) = config) ∧
        opened (.file (ascii "/" ++ kernel)) = [kernelPath] ∧
        (∀ (j : Nat) (ref path : Bytes), initrds[j]? = some ref →
          initrdPaths.list[j]? = some path → opened (.file (ascii "/" ++ ref)) = [path]) ∧
        ∀ path, (∀ file ∈ opened (.file path), file = kernelPath ∨ file ∈ initrdPaths.list) ∧
          ((∀ id, Base64.decode (base path) = some id → id ≠ ascii "kernel" ∧
              ¬∃ i, Denotes id i ∧ 0 ≤ i ∧ i < initrdPaths.list.length) →
            400 ≤ (response (.file path)).status) := by
  intro made
  have built := run_new out box key quote kernelPath initrdPaths cmdline w
  have isB : made.2.1 = _ := congrArg Prod.fst built
  have isW : made.2.2 = _ := congrArg Prod.snd built
  rw [isB, isW]
  intro s
  refine ⟨fileRef (ascii "kernel"),
    (StaticBooter.initrdIDs initrdPaths.list.length).map fileRef, _,
    names_linuxConfig (ascii "kernel") (StaticBooter.initrdIDs initrdPaths.list.length) cmdline,
    ?_, ?_⟩
  · rw [List.length_map, StaticBooter.initrdIDs, List.length_map, List.length_range]
  intro before now response opened config
  have still : Intact _ now :=
    Intact.serveAll out box key ⟨List.getElem?_concat_length, rfl⟩ ldlinux before
  have every : ∀ mac, ((s.configFor mac).run (answer out box key) now).2.1 = config := by
    intro mac
    rw [run_static_configFor out box key still]
  refine ⟨?_, ?_, ?_, ?_, ?_⟩
  · intro path mac named parsed
    simp only [response, Server.serve, pxelinuxConfig_eq _ named parsed, every mac]
  · intro path status
    rcases pxelinuxConfig_cases s path with ⟨text, refused⟩ | ⟨mac, goes⟩
    · simp only [response, Server.serve, refused, Prog.run_pure, httpError] at status
      omega
    · simp only [response, Server.serve, goes, every mac]
  · exact run_file_of_kernel out box key _ ldlinux now
  · intro j ref path here there
    exact run_file_of_index out box key _ ldlinux now here there
  · intro path
    exact run_file_any out box key _ ldlinux path now

end Run

/-! ## Two initrds -/

def twoInitrds : Strings := ⟨[ascii "/initrd0", ascii "/initrd1"], by decide⟩

/-- A static server for them, when it has just been started. -/
def startTwoInitrds : List Asked × StaticBooter × World Nat :=
  (StaticBooter.new id (ascii "/vmlinuz") twoInitrds (ascii "quiet")).run
    (answer countingOutside clearBox zeroKey) ⟨0, []⟩

/-- Two machines get their configurations, and a third is treated like them. -/
theorem static_serves_configured_files_twoInitrds :
    let s := Server.mk startTwoInitrds.2.1.booter []
    let path := ascii "/pxelinux.cfg/01-00-16-3e-00-00-01"
    let now := serveAll countingOutside clearBox zeroKey s startTwoInitrds.2.2
      [.pxelinuxConfig path, .pxelinuxConfig path]
    let served := fun r => (s.serve r).run (answer countingOutside clearBox zeroKey) now
    ∃ kernel initrd0 initrd1 body : Bytes,
      (served (.pxelinuxConfig path)).2.1 = ⟨200, ascii "text/plain", body⟩ ∧
      Names body kernel [initrd0, initrd1] (ascii "quiet") ∧
      openedFiles (served (.file (ascii "/" ++ kernel))).1 = [ascii "/vmlinuz"] ∧
      openedFiles (served (.file (ascii "/" ++ initrd1))).1 = [ascii "/initrd1"] ∧
      400 ≤ (served (.file (ascii "/f/AAAA"))).2.1.status := by
  intro s path now served
  obtain ⟨kernel, initrds, body, names, count, every⟩ :=
    static_serves_configured_files countingOutside clearBox zeroKey id (ascii "/vmlinuz")
      twoInitrds (ascii "quiet") [] ⟨0, []⟩
  obtain ⟨initrd0, initrd1, rfl⟩ := List.length_eq_two.mp count
  obtain ⟨config, _, opened, indexed, files⟩ := every [.pxelinuxConfig path, .pxelinuxConfig path]
  refine ⟨kernel, initrd0, initrd1, body,
    config path [0x00, 0x16, 0x3e, 0x00, 0x00, 0x01] (by decide) (by decide), names, opened,
    indexed 1 initrd1 (ascii "/initrd1") rfl rfl, (files (ascii "/f/AAAA")).2 ?_⟩
  intro other decoded
  have isZeros : Base64.decode (base (ascii "/f/AAAA")) = some [0, 0, 0] := by decide +kernel
  cases decoded.symm.trans isZeros
  refine ⟨by decide, ?_⟩
  intro ⟨i, denotes, natural, below⟩
  have parsed := (atoi_eq_some_iff [0, 0, 0] i).mpr ⟨denotes, by omega, by
    have : i < 2 := below
    omega⟩
  cases parsed

end Pixiecore.Http
