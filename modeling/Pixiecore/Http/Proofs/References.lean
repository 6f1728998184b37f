import Pixiecore.Api.Proofs.Check
import Pixiecore.Api.Proofs.Slices
import Pixiecore.Http.Proofs.Text

/-!
# References in API mode

A configuration names the kernel and the initrds by references, and a reference that is
requested later makes `remoteBooter` fetch the URL it stands for, whatever was requested
in between.
-/

namespace Pixiecore.Http

open Api

/-- A signed blob for the URL. -/
def Signed (box : Secretbox) (key : Key) (u id : Bytes) : Prop :=
  ∃ nonce : Nonce, id = nonce.bytes ++ box.sealBox key nonce u

/-- Randomness never fails. -/
def RandomnessWorks {W : Type} (out : Outside W) : Prop :=
  ∀ o, ∃ nonce o', out.random o = (.ok nonce, o')

section Run

variable {W : Type} (out : Outside W) (box : Secretbox) (key : Key)

/-- The world after some requests have been served one after the other. -/
def serveAll (s : Server) (w : World W) : List Request → World W
  | [] => w
  | r :: rs => serveAll s ((s.serve r).run (answer out box key) w).2.2 rs

/-! ## Signing -/

section Asks

variable {P : Question → Prop} (random : P .random) (boxes : ∀ nonce u, P (.sealBox nonce u))

include random boxes

/-- Signing asks for randomness and for a box, and for nothing else. -/
theorem asks_signURL (u : Bytes) : (RemoteBooter.signURL u).Asks P := by
  apply (Prog.asks_ask1 random).bind
  intro nonce
  cases nonce with
  | error err => exact Prog.asks_pure _
  | ok nonce =>
    apply (Prog.asks_ask1 (boxes nonce u)).bind
    intro signed
    exact Prog.asks_pure _

theorem asks_signURLs (us : List Bytes) : (RemoteBooter.signURLs us).Asks P := by
  induction us with
  | nil => exact Prog.asks_pure _
  | cons u us ih =>
    apply (asks_signURL random boxes u).bind
    intro signed
    cases signed with
    | error err => exact Prog.asks_pure _
    | ok id =>
      apply ih.bind
      intro ids
      cases ids with
      | error err => exact Prog.asks_pure _
      | ok ids => exact Prog.asks_pure _

end Asks

theorem run_signURL {w : World W} (u : Bytes) {nonce : Nonce} {o : W}
    (works : out.random w.outside = (.ok nonce, o)) :
    ((RemoteBooter.signURL u).run (answer out box key) w).2 =
      (.ok (nonce.bytes ++ box.sealBox key nonce u), { w with outside := o }) := by
  simp only [RemoteBooter.signURL, readNonce, secretboxSeal, Prog.run_bind, Prog.run_ask1, answer,
    works, Prog.run_pure]

theorem run_signURLs (works : RandomnessWorks out) (w : World W) (us : List Bytes) :
    ∃ ids w', ((RemoteBooter.signURLs us).run (answer out box key) w).2 = (.ok ids, w') ∧
      List.Forall₂ (Signed box key) us ids ∧ w'.arrays = w.arrays := by
  induction us generalizing w with
  | nil => exact ⟨[], w, rfl, List.Forall₂.nil, rfl⟩
  | cons u us ih =>
    obtain ⟨nonce, o, random⟩ := works w.outside
    have first := run_signURL out box key u random
    obtain ⟨ids, w', rest, signed, same⟩ := ih { w with outside := o }
    refine ⟨(nonce.bytes ++ box.sealBox key nonce u) :: ids, w', ?_,
      List.Forall₂.cons ⟨nonce, rfl⟩ signed, same⟩
    simp only [RemoteBooter.signURLs, Prog.run_bind, first, rest, Prog.run_pure]

/-- What `BootSpec` returns for a response that passes the checks. -/
theorem run_bootSpec (b : RemoteBooter) (works : RandomnessWorks out) (w : World W) (hw : Bytes)
    {resp : HTTPResponse} {o : W} {r : SpecJSON}
    (answered : out.apiGet w.outside (b.bootURL hw) = (.ok resp, o))
    (passed : b.checkSpec (b.bootURL hw) resp = .ok r) :
    ∃ kernel ids w', ((b.bootSpec hw).run (answer out box key) w).2 =
        (.ok ⟨kernel, ⟨w.arrays.length, ids.length⟩, r.cmdline⟩, w') ∧
      Signed box key r.kernel kernel ∧ List.Forall₂ (Signed box key) r.initrd ids ∧
      w'.arrays = w.arrays ++ [ids] := by
  obtain ⟨nonce, o', random⟩ := works o
  have spec : ((b.getSpec hw).run (answer out box key) w).2 =
      (.ok r, { w with outside := o }) := by
    simp only [RemoteBooter.getSpec, clientGet, Prog.run_bind, Prog.run_ask1, answer, answered,
      passed, Prog.run_pure]
  have first := run_signURL out box key (w := { w with outside := o }) r.kernel random
  obtain ⟨ids, w', rest, signed, same⟩ :=
    run_signURLs out box key works { w with outside := o' } r.initrd
  refine ⟨nonce.bytes ++ box.sealBox key nonce r.kernel, ids,
    { w' with arrays := w'.arrays ++ [ids] }, ?_, ⟨nonce, rfl⟩, signed, by rw [same]⟩
  simp only [RemoteBooter.bootSpec, makeSlice, Prog.run_bind, spec, first, rest, Prog.run_ask1,
    answer, Prog.run_pure, same]

/-! ## The initrd slice -/

/-- The loop replaces each ID by its reference, in place. -/
theorem run_encodeInitrds (s : Slice) (done todo : List Bytes) (w : World W)
    (here : w.arrays[s.arr]? = some (done ++ todo)) :
    ((encodeInitrds s (List.range' done.length todo.length)).run (answer out box key) w).2 =
      ((), { w with arrays := w.arrays.set s.arr (done ++ todo.map fileRef) }) := by
  induction todo generalizing done w with
  | nil =>
    obtain ⟨bound, same⟩ := List.getElem?_eq_some_iff.mp here
    rw [List.append_nil] at same
    simp only [List.map_nil, List.append_nil, ← same, List.set_getElem_self]
    rfl
  | cons x todo ih =>
    have bound := (List.getElem?_eq_some_iff.mp here).1
    have all := elems_of_getElem? here
    have replaced : (done ++ x :: todo).set done.length (fileRef x) =
        done ++ fileRef x :: todo := by
      rw [List.set_append_right _ _ (Nat.le_refl _), Nat.sub_self]
      rfl
    have rest := ih (done ++ [fileRef x])
      { w with arrays := w.arrays.set s.arr (done ++ fileRef x :: todo) }
      (by rw [List.append_assoc]; exact List.getElem?_set_self bound)
    simp only [List.length_append, List.length_singleton, List.set_set, List.append_assoc,
      List.singleton_append] at rest
    rw [List.length_cons, List.range'_succ]
    simp only [encodeInitrds, index, setIndex, Prog.run_bind, Prog.run_ask1, answer, all,
      getD_append_cons, replaced, rest, List.map_cons]

/-! ## The handlers -/

/-- The configuration for the boot spec that a booter returns, whose IDs the references replace. -/
theorem run_configFor_of_bootSpec (s : Server) (mac : Bytes) {w w' : World W} {spec : BootSpec}
    {ids : List Bytes}
    (booted : ((s.booter.bootSpec mac).run (answer out box key) w).2 = (.ok spec, w'))
    (here : w'.arrays[spec.initrd.arr]? = some ids) (whole : spec.initrd.len = ids.length) :
    ((s.configFor mac).run (answer out box key) w).2 =
      (⟨200, ascii "text/plain",
          linuxConfig (fileRef spec.kernel) (ids.map fileRef) spec.cmdline⟩,
        { w' with arrays := w'.arrays.set spec.initrd.arr (ids.map fileRef) }) := by
  have bound := (List.getElem?_eq_some_iff.mp here).1
  have encoded := run_encodeInitrds out box key spec.initrd [] ids w' here
  have back := run_readElems out box key spec.initrd [] (ids.map fileRef)
    { w' with arrays := w'.arrays.set spec.initrd.arr (ids.map fileRef) }
    (List.getElem?_set_self bound)
  rw [List.length_nil, ← List.range_eq_range', ← whole, List.nil_append] at encoded
  rw [List.length_nil, ← List.range_eq_range', List.length_map, ← whole] at back
  simp only [Server.configFor, Prog.run_bind, booted, encoded, back, Prog.run_pure]

/-- The configuration for a response that passes the checks. -/
theorem run_configFor (b : RemoteBooter) (ldlinux : Bytes) (works : RandomnessWorks out)
    (w : World W) (mac : Bytes) {resp : HTTPResponse} {o : W} {r : SpecJSON}
    (answered : out.apiGet w.outside (b.bootURL mac) = (.ok resp, o))
    (passed : b.checkSpec (b.bootURL mac) resp = .ok r) :
    ∃ kernel ids, (((Server.mk b.booter ldlinux).configFor mac).run (answer out box key) w).2.1 =
        ⟨200, ascii "text/plain", linuxConfig (fileRef kernel) (ids.map fileRef) r.cmdline⟩ ∧
      Signed box key r.kernel kernel ∧ List.Forall₂ (Signed box key) r.initrd ids := by
  obtain ⟨kernel, ids, w', spec, kernelSigned, idsSigned, arrays⟩ :=
    run_bootSpec out box key b works w mac answered passed
  have here : w'.arrays[w.arrays.length]? = some ids := by
    rw [arrays]
    exact List.getElem?_concat_length
  have config :=
    run_configFor_of_bootSpec out box key (Server.mk b.booter ldlinux) mac spec here rfl
  exact ⟨kernel, ids, congrArg Prod.fst config, kernelSigned, idsSigned⟩

/-- The path in a request for a configuration, when it names a machine. -/
theorem pxelinuxConfig_eq (s : Server) {path mac : Bytes}
    (named : (ascii "01-").isPrefixOf (base path) = true)
    (parsed : parseMAC ((base path).drop 3) = some mac) :
    s.pxelinuxConfig path = s.configFor mac := by
  simp only [Server.pxelinuxConfig, named, parsed, if_true]

theorem base_fileRef {id : Bytes} (nonempty : id ≠ []) :
    base (ascii "/" ++ fileRef id) = Base64.encode id := by
  have path : ascii "/" ++ fileRef id = ascii "/f" ++ [slash] ++ Base64.encode id := by
    rw [fileRef, ← List.append_assoc]
    rfl
  rw [path]
  refine base_append _ _ (Base64.encode_ne_nil nonempty) ?_
  intro member
  have notDigit : slash ∉ Base64.alphabet := by
    rw [Base64.alphabet_eq]
    decide +kernel
  rcases Base64.mem_encode member with digit | pad
  · exact notDigit digit
  · exact absurd pad (by decide)

theorem Signed.ne_nil {u id : Bytes} (signed : Signed box key u id) : id ≠ [] := by
  obtain ⟨nonce, rfl⟩ := signed
  intro empty
  have nothing := congrArg List.length empty
  rw [List.length_append, nonce.size, List.length_nil] at nothing
  omega

/-- A blob is taken apart as it was put together, and the URL is what the box opens to. -/
theorem getURL_append (nonce : Nonce) (sealed : Bytes) :
    ∃ k, RemoteBooter.getURL (nonce.bytes ++ sealed) = secretboxOpen nonce sealed >>= k ∧
      ∀ u, k (some u) = pure (.ok u) := by
  have long : 24 ≤ (nonce.bytes ++ sealed).length := by
    rw [List.length_append, nonce.size]
    omega
  have front : RemoteBooter.nonceOf (nonce.bytes ++ sealed) long = nonce := by
    obtain ⟨bytes, size⟩ := nonce
    simp only [RemoteBooter.nonceOf, List.take_left' size]
  rw [RemoteBooter.getURL, dif_pos long, front, List.drop_left' nonce.size]
  exact ⟨_, rfl, fun _ => rfl⟩

/-- A request for a reference fetches the URL it stands for, in any world. -/
theorem run_file_fileRef (b : RemoteBooter) (ldlinux : Bytes) (w : World W) {u id : Bytes}
    (signed : Signed box key u id) :
    httpGets (((Server.mk b.booter ldlinux).file (ascii "/" ++ fileRef id)).run
      (answer out box key) w).1 = [u] := by
  have fetched : httpGets ((RemoteBooter.file id).run (answer out box key) w).1 = [u] := by
    obtain ⟨nonce, rfl⟩ := signed
    obtain ⟨k, opens, opened⟩ := getURL_append nonce (box.sealBox key nonce u)
    simp only [RemoteBooter.file, opens, opened, secretboxOpen, httpGet, Prog.run_bind,
      Prog.run_ask1, Prog.run_pure, answer, box.openBox_sealBox]
    rcases (out.httpGet w.outside u).1 with err | resp
    · rfl
    · rfl
  simp only [Server.file, base_fileRef signed.ne_nil, Base64.decode_encode, Prog.run_bind]
  -- nothing is asked once the byte stream is there
  rcases ((b.booter.file id).run (answer out box key) w).2.1 with err | ⟨f, pretty⟩
  · rw [Prog.run_pure, List.append_nil]
    exact fetched
  · rw [Prog.run_pure, List.append_nil]
    exact fetched

/-- In API mode, a configuration names the kernel and each initrd in order by references, and a
later request for one of the references, after any other requests, fetches exactly the URL that
the API server gave. -/
theorem references_resolve (b : RemoteBooter) (ldlinux : Bytes) (works : RandomnessWorks out)
    (w : World W) (path mac : Bytes) (resp : HTTPResponse) (r : SpecJSON)
    (named : (ascii "01-").isPrefixOf (base path) = true)
    (parsed : parseMAC ((base path).drop 3) = some mac)
    (answered : (out.apiGet w.outside (b.bootURL mac)).1 = .ok resp)
    (status : resp.statusCode = 200) (decoded : b.lib.decode resp.body = .ok r)
    (absolute : ∀ u ∈ r.urls, Absolute b.lib u) :
    let s := Server.mk b.booter ldlinux
    let config := (s.serve (.pxelinuxConfig path)).run (answer out box key) w
    ∃ (kernel : Bytes) (initrds : List Bytes) (body : Bytes),
      config.2.1 = ⟨200, ascii "text/plain", body⟩ ∧
      Names body kernel initrds r.cmdline ∧ initrds.length = r.initrd.length ∧
      ∀ (others : List Request),
        let later := serveAll out box key s config.2.2 others
        httpGets ((s.serve (.file (ascii "/" ++ kernel))).run (answer out box key) later).1 =
            [r.kernel] ∧
          ∀ (j : Nat) (ref u : Bytes), initrds[j]? = some ref → r.initrd[j]? = some u →
            httpGets ((s.serve (.file (ascii "/" ++ ref))).run (answer out box key) later).1 =
              [u] := by
  intro s config
  have passed : b.checkSpec (b.bootURL mac) resp = .ok r :=
    checkSpec_ok_iff.mpr ⟨status, decoded, absolute⟩
  obtain ⟨kernel, ids, response, kernelSigned, idsSigned⟩ :=
    run_configFor out box key b ldlinux works w mac (Prod.ext answered rfl) passed
  refine ⟨fileRef kernel, ids.map fileRef, _, ?_, names_linuxConfig kernel ids r.cmdline, ?_, ?_⟩
  · have goes : s.serve (.pxelinuxConfig path) = s.configFor mac := pxelinuxConfig_eq s named parsed
    simp only [config, goes]
    exact response
  · rw [List.length_map, idsSigned.length_eq]
  · intro others later
    refine ⟨run_file_fileRef out box key b ldlinux later kernelSigned, ?_⟩
    intro j ref u here there
    rw [List.getElem?_map] at here
    obtain ⟨id, found, rfl⟩ := Option.map_eq_some_iff.mp here
    obtain ⟨below, rfl⟩ := List.getElem?_eq_some_iff.mp found
    obtain ⟨below', rfl⟩ := List.getElem?_eq_some_iff.mp there
    exact run_file_fileRef out box key b ldlinux later (idsSigned.get below' below)

end Run

/-! ## One machine boots -/

/-- The server for these files, answered from outside. -/
def serveTwoFiles (w : World Nat) (r : Request) : List Asked × Response × World Nat :=
  ((Server.mk twoFiles.booter []).serve r).run (answer countingOutside clearBox zeroKey) w

theorem randomnessWorks_countingOutside : RandomnessWorks countingOutside :=
  fun _ => ⟨_, _, rfl⟩

theorem decode_twoFiles :
    twoFiles.lib.decode ⟨twoFilesJSON, .eof⟩ =
      .ok ⟨ascii "http://h/k", [ascii "http://h/i"], ascii "quiet"⟩ := by
  have whole : twoFilesJSON.isPrefixOf twoFilesJSON = true :=
    List.isPrefixOf_iff_prefix.mpr (List.prefix_refl _)
  simp only [twoFiles, whole, if_true]

theorem absolute_twoFiles :
    ∀ u ∈ [ascii "http://h/k", ascii "http://h/i"], Absolute twoFiles.lib u := by
  intro u member
  refine ⟨⟨ascii "http", ?_, by decide⟩, rfl⟩
  rcases List.mem_cons.mp member with rfl | last
  · decide
  · rw [List.mem_singleton.mp last]
    decide

/-- The machine gets its configuration, another one gets the same, and then the first asks for
its kernel and its initrd. -/
theorem references_resolve_twoFiles :
    ∃ kernel initrd body : Bytes,
      let path := ascii "/pxelinux.cfg/01-00-16-3e-00-00-01"
      let config := serveTwoFiles ⟨0, []⟩ (.pxelinuxConfig path)
      let other := serveTwoFiles config.2.2 (.pxelinuxConfig path)
      config.2.1 = ⟨200, ascii "text/plain", body⟩ ∧
      Names body kernel [initrd] (ascii "quiet") ∧
      httpGets (serveTwoFiles other.2.2 (.file (ascii "/" ++ kernel))).1 =
        [ascii "http://h/k"] ∧
      httpGets (serveTwoFiles other.2.2 (.file (ascii "/" ++ initrd))).1 =
        [ascii "http://h/i"] := by
  obtain ⟨kernel, initrds, body, response, names, count, resolve⟩ :=
    references_resolve countingOutside clearBox zeroKey twoFiles []
      randomnessWorks_countingOutside ⟨0, []⟩ (ascii "/pxelinux.cfg/01-00-16-3e-00-00-01")
      [0x00, 0x16, 0x3e, 0x00, 0x00, 0x01] ⟨200, ⟨twoFilesJSON, .eof⟩⟩
      ⟨ascii "http://h/k", [ascii "http://h/i"], ascii "quiet"⟩ (by decide) (by decide) rfl rfl
      decode_twoFiles absolute_twoFiles
  obtain ⟨initrd, rfl⟩ := List.length_eq_one_iff.mp count
  have later := resolve [.pxelinuxConfig (ascii "/pxelinux.cfg/01-00-16-3e-00-00-01")]
  exact ⟨kernel, initrd, body, response, names, later.1,
    later.2 0 initrd (ascii "http://h/i") rfl rfl⟩

end Pixiecore.Http
