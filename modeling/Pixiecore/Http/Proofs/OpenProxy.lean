import Pixiecore.Api.Proofs.Check
import Pixiecore.Http.Server

/-!
# API mode is not an open proxy

Any number of HTTP requests, and of `ShouldBoot` calls from the DHCP side, are served at
the same time, with answers from the outside that may be anything. As long as nobody can
forge a box that `secretbox` opens, whatever is passed to `http.Get` was in a response
that the API server gave to a configuration request before, and is absolute.
-/

namespace Pixiecore.Http

open Api

/-- What goes on in the process concurrently. -/
inductive Task where
  | http (r : Request)
  | shouldBoot (mac : Bytes)
  deriving DecidableEq, Repr

/-- A task, run for its effects. -/
def Task.program (b : RemoteBooter) (ldlinux : Bytes) : Task → Program Unit
  | .http r => do
    let _ ← (Server.mk b.booter ldlinux).serve r
    pure ()
  | .shouldBoot mac => do
    let _ ← b.booter.shouldBoot mac
    pure ()

/-- A box that `secretbox` opens was sealed earlier, with the same nonce and message. -/
def Unforged (tr : List (Nat × Asked)) : Prop :=
  ∀ (n t : Nat) (nonce : Nonce) (box message : Bytes),
    tr[n]? = some (t, asked (.openBox nonce box) (some message)) →
    ∃ m t' : Nat, m < n ∧ tr[m]? = some (t', asked (.sealBox nonce message) box)

/-! ## What each task may do -/

/-- The API server answered with the URL in a 200 response, and it is absolute. -/
def Issued (b : RemoteBooter) (h : List Asked) (u : Bytes) : Prop :=
  ∃ mac resp r, asked (.apiGet (b.bootURL mac)) (.ok resp) ∈ h ∧ resp.statusCode = 200 ∧
    b.lib.decode resp.body = .ok r ∧ u ∈ r.urls ∧ HasScheme u

/-- Only a configuration request seals, and only what it was given; what is passed to `http.Get`
was opened. -/
def Allowed (b : RemoteBooter) (task : Task) (h : List Asked) : Asked → Prop
  | ⟨.sealBox _ u, _⟩ => (∃ path, task = .http (.pxelinuxConfig path)) ∧ Issued b h u
  | ⟨.httpGet u, _⟩ => ∃ nonce box, asked (.openBox nonce box) (some u) ∈ h
  | _ => True

theorem Issued.mono {b : RemoteBooter} {h h' : List Asked} {u : Bytes} (issued : Issued b h u)
    (grows : h <+: h') : Issued b h' u := by
  obtain ⟨mac, resp, r, member, rest⟩ := issued
  exact ⟨mac, resp, r, grows.subset member, rest⟩

/-! ## Every task keeps to it -/

section Safe

variable {b : RemoteBooter} {task : Task} {h : List Asked}

/-- Questions that `Allowed` says nothing about. -/
theorem safe_free {q : Question} (free : ∀ h x, Allowed b task h ⟨q, x⟩) :
    Prog.Safe (Allowed b task) h (Prog.ask1 q) (fun _ _ => True) :=
  (Prog.safe_ask1 (free h)).mono (fun _ _ _ _ => trivial)

theorem safe_getSpec (hw : Bytes) :
    Prog.Safe (Allowed b task) h (b.getSpec hw)
      (fun h' res => ∀ r, res = .ok r → ∀ u ∈ r.urls, Issued b h' u) := by
  unfold RemoteBooter.getSpec
  refine Prog.Safe.bind (Prog.safe_ask1 (fun _ => trivial)) ?_
  rintro h' (err | resp) grows rfl
  · exact Prog.safe_pure (fun r e => by cases e)
  · refine Prog.safe_pure ?_
    intro r passed u member
    obtain ⟨status, decoded, absolute⟩ := checkSpec_ok_iff.mp passed
    exact ⟨hw, resp, r, List.mem_append_right _ (List.mem_singleton_self _), status, decoded,
      member, (absolute u member).1⟩

theorem safe_signURL {u path : Bytes} (config : task = .http (.pxelinuxConfig path))
    (issued : Issued b h u) :
    Prog.Safe (Allowed b task) h (RemoteBooter.signURL u) (fun _ _ => True) := by
  unfold RemoteBooter.signURL
  refine Prog.Safe.bind (safe_free (fun _ _ => trivial)) ?_
  rintro h' (err | nonce) grows _
  · exact Prog.safe_pure trivial
  · refine Prog.Safe.bind (Prog.safe_ask1 (fun _ => ⟨⟨path, config⟩, issued.mono grows⟩)) ?_
    intro _ _ _ _
    exact Prog.safe_pure trivial

theorem safe_signURLs {us : List Bytes} {path : Bytes}
    (config : task = .http (.pxelinuxConfig path)) (issued : ∀ u ∈ us, Issued b h u) :
    Prog.Safe (Allowed b task) h (RemoteBooter.signURLs us) (fun _ _ => True) := by
  induction us generalizing h with
  | nil => exact Prog.safe_pure trivial
  | cons img rest ih =>
    unfold RemoteBooter.signURLs
    refine Prog.Safe.bind (safe_signURL config (issued img List.mem_cons_self)) ?_
    rintro h' (err | initrd) grows _
    · exact Prog.safe_pure trivial
    · refine Prog.Safe.bind (ih (fun u member =>
        (issued u (List.mem_cons_of_mem img member)).mono grows)) ?_
      rintro h'' (err | initrds) _ _
      · exact Prog.safe_pure trivial
      · exact Prog.safe_pure trivial

theorem safe_bootSpec {path : Bytes} (config : task = .http (.pxelinuxConfig path))
    (hw : Bytes) : Prog.Safe (Allowed b task) h (b.bootSpec hw) (fun _ _ => True) := by
  unfold RemoteBooter.bootSpec
  refine Prog.Safe.bind (safe_getSpec hw) ?_
  rintro h₁ (err | r) _ issued
  · exact Prog.safe_pure trivial
  · have urls := issued r rfl
    refine Prog.Safe.bind (safe_signURL config (urls r.kernel List.mem_cons_self)) ?_
    rintro h₂ (err | kernel) grows _
    · exact Prog.safe_pure trivial
    · refine Prog.Safe.bind (safe_signURLs config (fun u member =>
        (urls u (List.mem_cons_of_mem r.kernel member)).mono grows)) ?_
      rintro h₃ (err | initrds) _ _
      · exact Prog.safe_pure trivial
      · refine Prog.Safe.bind (safe_free (fun _ _ => trivial)) ?_
        intro _ _ _ _
        exact Prog.safe_pure trivial

theorem safe_encodeInitrds (s : Slice) (is : List Nat) :
    Prog.Safe (Allowed b task) h (encodeInitrds s is) (fun _ _ => True) := by
  induction is generalizing h with
  | nil => exact Prog.safe_pure trivial
  | cons i is ih =>
    unfold encodeInitrds
    refine Prog.Safe.bind (safe_free (fun _ _ => trivial)) ?_
    intro _ _ _ _
    refine Prog.Safe.bind (safe_free (fun _ _ => trivial)) ?_
    intro _ _ _ _
    exact ih

theorem safe_readElems (s : Slice) (is : List Nat) :
    Prog.Safe (Allowed b task) h (readElems s is) (fun _ _ => True) := by
  induction is generalizing h with
  | nil => exact Prog.safe_pure trivial
  | cons i is ih =>
    unfold readElems
    refine Prog.Safe.bind (safe_free (fun _ _ => trivial)) ?_
    intro _ _ _ _
    refine Prog.Safe.bind ih ?_
    intro _ _ _ _
    exact Prog.safe_pure trivial

theorem safe_pxelinuxConfig (ldlinux : Bytes) {path : Bytes}
    (config : task = .http (.pxelinuxConfig path)) :
    Prog.Safe (Allowed b task) h ((Server.mk b.booter ldlinux).pxelinuxConfig path)
      (fun _ _ => True) := by
  unfold Server.pxelinuxConfig
  dsimp only
  split
  · split
    · exact Prog.safe_pure trivial
    · rename_i mac _
      unfold Server.configFor
      refine Prog.Safe.bind (safe_bootSpec config mac) ?_
      rintro h' (err | spec) _ _
      · exact Prog.safe_pure trivial
      · refine Prog.Safe.bind (safe_encodeInitrds _ _) ?_
        intro _ _ _ _
        refine Prog.Safe.bind (safe_readElems _ _) ?_
        intro _ _ _ _
        exact Prog.safe_pure trivial
  · exact Prog.safe_pure trivial

/-- What `getURL` returns was opened. -/
theorem safe_getURL (signed : Bytes) :
    Prog.Safe (Allowed b task) h (RemoteBooter.getURL signed)
      (fun h' res => ∀ u, res = .ok u → ∃ nonce box, asked (.openBox nonce box) (some u) ∈ h') := by
  unfold RemoteBooter.getURL
  split
  · refine Prog.Safe.bind (Prog.safe_ask1 (fun _ => trivial)) ?_
    rintro h' (_ | out) grows rfl
    · exact Prog.safe_pure (fun u e => by cases e)
    · refine Prog.safe_pure ?_
      rintro u ⟨⟩
      exact ⟨_, _, List.mem_append_right _ (List.mem_singleton_self _)⟩
  · exact Prog.safe_pure (fun u e => by cases e)

theorem safe_file (ldlinux path : Bytes) :
    Prog.Safe (Allowed b task) h ((Server.mk b.booter ldlinux).file path) (fun _ _ => True) := by
  unfold Server.file
  split
  · exact Prog.safe_pure trivial
  · rename_i id _
    refine Prog.Safe.bind (P := fun _ _ => True) ?_ ?_
    · show Prog.Safe (Allowed b task) h (RemoteBooter.file id) _
      unfold RemoteBooter.file
      refine Prog.Safe.bind (safe_getURL id) ?_
      rintro h' (err | u) _ opened
      · exact Prog.safe_pure trivial
      · refine Prog.Safe.bind (Prog.safe_ask1 (fun _ => opened u rfl)) ?_
        rintro _ (err | resp) _ _
        · exact Prog.safe_pure trivial
        · exact Prog.safe_pure trivial
    · rintro _ (err | ⟨f, pretty⟩) _ _
      · exact Prog.safe_pure trivial
      · exact Prog.safe_pure trivial

/-- Every task does only what it is allowed to. -/
theorem safe_task (ldlinux : Bytes) (task : Task) :
    Prog.Safe (Allowed b task) [] (task.program b ldlinux) (fun _ _ => True) := by
  cases task with
  | http r =>
    refine Prog.Safe.bind (P := fun _ _ => True) ?_ (fun _ _ _ _ => Prog.safe_pure trivial)
    cases r with
    | ldlinux => exact Prog.safe_pure trivial
    | pxelinuxConfig path => exact safe_pxelinuxConfig ldlinux rfl
    | file path => exact safe_file ldlinux path
  | shouldBoot mac =>
    refine Prog.Safe.bind (P := fun _ _ => True) ?_ (fun _ _ _ _ => Prog.safe_pure trivial)
    refine Prog.Safe.bind (safe_getSpec mac) ?_
    rintro _ (err | r) _ _
    · exact Prog.safe_pure trivial
    · exact Prog.safe_pure trivial

end Safe

/-! ## The result -/

theorem mem_take_getElem {α : Type} {l : List α} {n : Nat} {a : α} (h : a ∈ l.take n) :
    ∃ m, m < n ∧ l[m]? = some a := by
  obtain ⟨m, bound, same⟩ := List.mem_take_iff_getElem.mp h
  exact ⟨m, by omega, List.getElem?_eq_some_iff.mpr ⟨by omega, same⟩⟩

/-- Every URL that is passed to `http.Get` was in a 200 response of the API server to an earlier
configuration request, and is absolute. -/
theorem httpGet_issued (b : RemoteBooter) (ldlinux : Bytes) (pool : Pool Task Question Answer Unit)
    (reach : Relation.ReflTransGen (Pool.Step (Task.program b ldlinux)) Pool.empty pool)
    (unforged : Unforged pool.trace) (n t : Nat) (u : Bytes) (x : Except Bytes HTTPResponse)
    (get : pool.trace[n]? = some (t, asked (.httpGet u) x)) :
    HasScheme u ∧ ∃ (m t' : Nat) (path mac : Bytes) (resp : HTTPResponse) (r : SpecJSON),
      m < n ∧ pool.started[t']? = some (.http (.pxelinuxConfig path)) ∧
      pool.trace[m]? = some (t', asked (.apiGet (b.bootURL mac)) (.ok resp)) ∧
      resp.statusCode = 200 ∧ b.lib.decode resp.body = .ok r ∧ u ∈ r.urls := by
  -- the URL was opened in this task, sealed in some task, and given to that task before
  obtain ⟨_, _, nonce, box, opened⟩ := Pool.allowed (safe_task ldlinux) reach get
  obtain ⟨k, before, atOpen⟩ := mem_take_getElem (Pool.mem_own opened)
  obtain ⟨l, t', earlier, atSeal⟩ := unforged k t nonce box u atOpen
  obtain ⟨_, started, ⟨path, rfl⟩, mac, resp, r, answered, status, decoded, member, absolute⟩ :=
    Pool.allowed (safe_task ldlinux) reach atSeal
  obtain ⟨m, first, atApi⟩ := mem_take_getElem (Pool.mem_own answered)
  exact ⟨absolute, m, t', path, mac, resp, r, by omega, started, atApi, status, decoded, member⟩

/-! ### One machine boots -/

/-- A machine asks for its configuration and then for the kernel in it. -/
def samplePool : Pool Task Question Answer Unit :=
  let prog := Task.program twoFiles []
  let ans := answer countingOutside clearBox zeroKey
  let config := Task.http (.pxelinuxConfig (ascii "/pxelinux.cfg/01-00-16-3e-00-00-01"))
  let kernel := Task.http
    (.file (ascii "/" ++ fileRef ((nthNonce 0).bytes ++ ascii "http://h/k")))
  let pool := Pool.andThen prog ans Pool.empty config ⟨0, []⟩
  Pool.andThen prog ans pool kernel ⟨2, []⟩

/-- The ID of the initrd, and what it becomes in the configuration. -/
def sampleInitrd : Bytes := (nthNonce 1).bytes ++ ascii "http://h/i"

theorem trace_samplePool :
    samplePool.trace =
      [(0, asked (.apiGet (twoFiles.bootURL [0x00, 0x16, 0x3e, 0x00, 0x00, 0x01]))
          (.ok ⟨200, ⟨twoFilesJSON, .eof⟩⟩)),
        (0, asked .random (.ok (nthNonce 0))),
        (0, asked (.sealBox (nthNonce 0) (ascii "http://h/k")) (ascii "http://h/k")),
        (0, asked .random (.ok (nthNonce 1))),
        (0, asked (.sealBox (nthNonce 1) (ascii "http://h/i")) (ascii "http://h/i")),
        (0, asked (.makeSlice [sampleInitrd]) ⟨0, 1⟩),
        (0, asked (.index ⟨0, 1⟩ 0) sampleInitrd),
        (0, asked (.setIndex ⟨0, 1⟩ 0 (fileRef sampleInitrd)) ()),
        (0, asked (.index ⟨0, 1⟩ 0) (fileRef sampleInitrd)),
        (1, asked (.openBox (nthNonce 0) (ascii "http://h/k")) (some (ascii "http://h/k"))),
        (1, asked (.httpGet (ascii "http://h/k")) (.ok ⟨200, ⟨ascii "http://h/k", .eof⟩⟩))] := rfl

theorem unforged_samplePool : Unforged samplePool.trace := by
  intro n t nonce box message opened
  rw [trace_samplePool] at opened ⊢
  rcases n with _ | _ | _ | _ | _ | _ | _ | _ | _ | _ | n
  · cases opened
  · cases opened
  · cases opened
  · cases opened
  · cases opened
  · cases opened
  · cases opened
  · cases opened
  · cases opened
  · cases opened
    exact ⟨2, 0, by omega, rfl⟩
  · rcases n with _ | n
    · cases opened
    · cases opened

theorem httpGet_issued_samplePool : HasScheme (ascii "http://h/k") :=
  (httpGet_issued twoFiles [] samplePool
    ((Pool.reach_andThen _ _ _ _ _).trans (Pool.reach_andThen _ _ _ _ _)) unforged_samplePool
    10 1 (ascii "http://h/k") (.ok ⟨200, ⟨ascii "http://h/k", .eof⟩⟩)
    (by rw [trace_samplePool]; rfl)).1

end Pixiecore.Http
