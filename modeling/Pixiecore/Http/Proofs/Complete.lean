import Pixiecore.Http.Proofs.References

/-!
# What a successful download means

`File` in API mode passes on what `http.Get` gives. It looks neither at the status of the
upstream server nor, beyond a line in the log, at the error with which reading the body ends,
and returns normally in both cases; the client then gets a 200 response that ends normally.
-/

namespace Pixiecore.Http

open Api

/-! ## Upstream servers -/

/-- An answer of an upstream server: its status, its entire body, and what can be read of the
body, which is all of it unless reading ends with an error. -/
structure Upstream where
  status : Nat
  body : Bytes
  read : Reader
  front : read.content <+: body
  entire : read.final = .eof → read.content = body

/-- What `http.Get` returns of it. -/
def Upstream.response (up : Upstream) : HTTPResponse := ⟨up.status, up.read⟩

/-- How upstream servers behave: the result of a request for a URL is an error of the transport
or an answer. -/
abbrev Behaviour (W : Type) := W → Bytes → Except Bytes Upstream × W

section Run

variable {W : Type} (out : Outside W) (get : Behaviour W) (box : Secretbox) (key : Key)

/-- The outside, with these upstream servers. -/
def fetching : Outside W :=
  { out with httpGet := fun o u => ((get o u).1.map Upstream.response, (get o u).2) }

/-- The URL that a signed blob verifies to. -/
def openURL (signed : Bytes) : Option Bytes :=
  if h : 24 ≤ signed.length then
    box.openBox key (RemoteBooter.nonceOf signed h) (signed.drop 24)
  else none

/-- The URL that the ID in a path verifies to. -/
def verifiedURL (path : Bytes) : Option Bytes := (Base64.decode (base path)).bind (openURL box key)

/-! ## The stages of a download -/

theorem run_getURL_none {signed : Bytes} (refused : openURL box key signed = none) (w : World W) :
    ∃ err, ((RemoteBooter.getURL signed).run (answer out box key) w).2 = (.error err, w) := by
  rw [openURL] at refused
  rw [RemoteBooter.getURL]
  split at refused
  · next long =>
    rw [dif_pos long]
    simp only [secretboxOpen, Prog.run_bind, Prog.run_ask1, answer, refused, Prog.run_pure]
    exact ⟨_, rfl⟩
  · next short =>
    rw [dif_neg short]
    exact ⟨_, rfl⟩

theorem run_getURL_some {signed u : Bytes} (opened : openURL box key signed = some u)
    (w : World W) :
    ((RemoteBooter.getURL signed).run (answer out box key) w).2 = (.ok u, w) := by
  rw [openURL] at opened
  rw [RemoteBooter.getURL]
  split at opened
  · next long =>
    rw [dif_pos long]
    simp only [secretboxOpen, Prog.run_bind, Prog.run_ask1, answer, opened, Prog.run_pure]
  · cases opened

/-- What `File` of the booter returns. -/
def fetched (id : Bytes) (w : World W) : Except Bytes (Reader × Bytes) :=
  ((RemoteBooter.file id).run (answer (fetching out get) box key) w).2.1

theorem fetched_unverified {id : Bytes} (refused : openURL box key id = none) (w : World W) :
    ∃ err, fetched out get box key id w = .error err := by
  obtain ⟨err, failed⟩ := run_getURL_none (fetching out get) box key refused w
  simp only [fetched, RemoteBooter.file, Prog.run_bind, failed, Prog.run_pure]
  exact ⟨err, rfl⟩

theorem fetched_error {id u err : Bytes} {w : World W} (opened : openURL box key id = some u)
    (got : (get w.outside u).1 = .error err) : fetched out get box key id w = .error err := by
  have answered : ((fetching out get).httpGet w.outside u).1 = .error err := by
    simp only [fetching, got, Except.map]
  simp only [fetched, RemoteBooter.file, Prog.run_bind,
    run_getURL_some (fetching out get) box key opened w, httpGet, Prog.run_ask1, answer, answered,
    Prog.run_pure]

theorem fetched_ok {id u : Bytes} {up : Upstream} {w : World W}
    (opened : openURL box key id = some u) (got : (get w.outside u).1 = .ok up) :
    fetched out get box key id w = .ok (up.read, u) := by
  have answered : ((fetching out get).httpGet w.outside u).1 = .ok up.response := by
    simp only [fetching, got, Except.map]
  simp only [fetched, RemoteBooter.file, Prog.run_bind,
    run_getURL_some (fetching out get) box key opened w, httpGet, Prog.run_ask1, answer, answered,
    Prog.run_pure, Upstream.response]

/-- The response to a request for a file. -/
def download (b : RemoteBooter) (ldlinux path : Bytes) (w : World W) : Response :=
  (((Server.mk b.booter ldlinux).serve (.file path)).run (answer (fetching out get) box key) w).2.1

section Download

variable (b : RemoteBooter) (ldlinux : Bytes) {path id : Bytes} {w : World W}

theorem download_malformed (malformed : Base64.decode (base path) = none) :
    (download out get box key b ldlinux path w).status = 400 := by
  simp only [download, Server.serve, Server.file, malformed, Prog.run_pure, httpError]

theorem download_error {err : Bytes} (decoded : Base64.decode (base path) = some id)
    (failed : fetched out get box key id w = .error err) :
    (download out get box key b ldlinux path w).status = 500 := by
  have result : (((Server.mk b.booter ldlinux).booter.file id).run
      (answer (fetching out get) box key) w).2.1 = .error err := failed
  simp only [download, Server.serve, Server.file, decoded, Prog.run_bind, result, Prog.run_pure,
    httpError]

theorem download_ok {f : Reader} {pretty : Bytes} (decoded : Base64.decode (base path) = some id)
    (opened : fetched out get box key id w = .ok (f, pretty)) :
    download out get box key b ldlinux path w =
      ⟨200, ascii "application/octet-stream", f.content⟩ := by
  have result : (((Server.mk b.booter ldlinux).booter.file id).run
      (answer (fetching out get) box key) w).2.1 = .ok (f, pretty) := opened
  simp only [download, Server.serve, Server.file, decoded, Prog.run_bind, result, Prog.run_pure]

end Download

/-- What can come of a download: the ID does not verify, the upstream server cannot be reached,
or its answer is passed on, as far as it can be read. -/
theorem download_cases (b : RemoteBooter) (ldlinux path : Bytes) (w : World W) :
    (verifiedURL box key path = none ∧
      400 ≤ (download out get box key b ldlinux path w).status) ∨
    (∃ u err, verifiedURL box key path = some u ∧ (get w.outside u).1 = .error err ∧
      (download out get box key b ldlinux path w).status = 500) ∨
    ∃ u up, verifiedURL box key path = some u ∧ (get w.outside u).1 = .ok up ∧
      download out get box key b ldlinux path w =
        ⟨200, ascii "application/octet-stream", up.read.content⟩ := by
  cases decoded : Base64.decode (base path) with
  | none =>
    refine .inl ⟨?_, Nat.le_of_eq (download_malformed out get box key b ldlinux decoded).symm⟩
    rw [verifiedURL, decoded, Option.bind_none]
  | some id =>
    have url : verifiedURL box key path = openURL box key id := by
      rw [verifiedURL, decoded, Option.bind_some]
    cases opened : openURL box key id with
    | none =>
      obtain ⟨err, failed⟩ := fetched_unverified out get box key opened w
      refine .inl ⟨url.trans opened, ?_⟩
      rw [download_error out get box key b ldlinux decoded failed]
      decide
    | some u =>
      cases got : (get w.outside u).1 with
      | error err =>
        exact .inr (.inl ⟨u, err, url.trans opened, got, download_error out get box key b ldlinux
          decoded (fetched_error out get box key opened got)⟩)
      | ok up =>
        exact .inr (.inr ⟨u, up, url.trans opened, got, download_ok out get box key b ldlinux
          decoded (fetched_ok out get box key opened got)⟩)

/-! ## Complete or failed -/

/-- A response is successful only if it is the entire body of a successful answer for the URL
that the ID verifies to, and otherwise it has an error status. Handlers return normally, so a
response always ends normally. -/
def CompleteOrFailed (path : Bytes) (o : W) (r : Response) : Prop :=
  (r.status = 200 → ∃ u up, verifiedURL box key path = some u ∧ (get o u).1 = .ok up ∧
    up.status = 200 ∧ r.body = up.body) ∧
  (r.status ≠ 200 → 400 ≤ r.status)

/-- This is so if and only if an upstream server that answers does so successfully, and its body
can be read to the end. -/
theorem download_completeOrFailed_iff (b : RemoteBooter) (ldlinux path : Bytes) (w : World W) :
    CompleteOrFailed get box key path w.outside (download out get box key b ldlinux path w) ↔
      ∀ u up, verifiedURL box key path = some u → (get w.outside u).1 = .ok up →
        up.status = 200 ∧ up.read.content = up.body := by
  rcases download_cases out get box key b ldlinux path w with
    ⟨unverified, failed⟩ | ⟨u, err, verified, got, failed⟩ | ⟨u, up, verified, got, passed⟩
  · refine iff_of_true ⟨fun success => ?_, fun _ => failed⟩ ?_
    · omega
    · intro u up verified
      rw [unverified] at verified
      cases verified
  · refine iff_of_true ⟨fun success => ?_, fun _ => ?_⟩ ?_
    · omega
    · omega
    · intro u' up verified' got'
      cases verified.symm.trans verified'
      cases got.symm.trans got'
  · rw [passed]
    constructor
    · rintro ⟨success, _⟩ u' up' verified' got'
      cases verified.symm.trans verified'
      cases got.symm.trans got'
      obtain ⟨u', up', verified', got', status, body⟩ := success rfl
      cases verified.symm.trans verified'
      cases got.symm.trans got'
      exact ⟨status, body⟩
    · intro good
      obtain ⟨status, body⟩ := good u up verified got
      exact ⟨fun _ => ⟨u, up, verified, got, status, body⟩, fun other => absurd rfl other⟩

end Run

/-! ## An error page and a lost connection -/

/-- An answer with a page about an error, which can be read to the end. -/
def notFound : Upstream where
  status := 404
  body := ascii "no such file"
  read := ⟨ascii "no such file", .eof⟩
  front := List.prefix_refl _
  entire _ := rfl

/-- An answer of which only the first three bytes arrive. -/
def cutOff : Upstream where
  status := 200
  body := ascii "kernel"
  read := ⟨ascii "ker", .unexpectedEOF⟩
  front := ⟨ascii "nel", rfl⟩
  entire isEOF := by cases isEOF

/-- The path of a file whose URL every box verifies to. -/
def signedPath : Bytes := ascii "/" ++ fileRef (List.replicate 24 0 ++ ascii "http://h/k")

/-- The download of it, from a server that always gives the same answer. -/
def downloadFrom (up : Upstream) : Response :=
  download countingOutside (fun o _ => (.ok up, o)) clearBox zeroKey twoFiles [] signedPath ⟨0, []⟩

theorem verifiedURL_signedPath :
    verifiedURL clearBox zeroKey signedPath = some (ascii "http://h/k") := by
  rw [verifiedURL, signedPath, base_fileRef (by decide), Base64.decode_encode]
  rfl

theorem downloadFrom_eq (up : Upstream) :
    downloadFrom up = ⟨200, ascii "application/octet-stream", up.read.content⟩ := by
  rcases download_cases countingOutside (fun o _ => (.ok up, o)) clearBox zeroKey twoFiles []
    signedPath ⟨0, []⟩ with ⟨unverified, _⟩ | ⟨u, err, _, got, _⟩ | ⟨u, up', _, got, passed⟩
  · cases unverified.symm.trans verifiedURL_signedPath
  · cases got
  · cases got
    exact passed

/-- The page about an error and the first three bytes of a kernel are both successful downloads. -/
theorem download_succeeds_incomplete :
    downloadFrom notFound = ⟨200, ascii "application/octet-stream", ascii "no such file"⟩ ∧
    downloadFrom cutOff = ⟨200, ascii "application/octet-stream", ascii "ker"⟩ ∧
    ¬ CompleteOrFailed (fun o _ => (.ok notFound, o)) clearBox zeroKey signedPath 0
      (downloadFrom notFound) ∧
    ¬ CompleteOrFailed (fun o _ => (.ok cutOff, o)) clearBox zeroKey signedPath 0
      (downloadFrom cutOff) := by
  refine ⟨downloadFrom_eq notFound, downloadFrom_eq cutOff, ?_, ?_⟩
  · rintro ⟨success, _⟩
    rw [downloadFrom_eq] at success
    obtain ⟨u, up, _, got, status, _⟩ := success rfl
    cases got
    cases status
  · rintro ⟨success, _⟩
    rw [downloadFrom_eq] at success
    obtain ⟨u, up, _, got, _, body⟩ := success rfl
    cases got
    cases body

end Pixiecore.Http
