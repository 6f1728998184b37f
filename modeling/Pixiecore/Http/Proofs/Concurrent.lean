import Pixiecore.Api.Proofs.Ownership
import Pixiecore.Http.Plain
import Pixiecore.Http.Proofs.Static

/-!
# Handlers at the same time

`net/http` serves every request in a goroutine of its own, and all of them use one booter. The
slice that `BootSpec` returns is rewritten in place by `PxelinuxConfig`, one element at a time.
Whatever the other handlers do between any two of these operations, a response is
what the server without memory gives for the request: the slice that a handler writes to was
made for it, and the IDs that `staticBooter` keeps are never written.
-/

namespace Pixiecore.Http

open Api

variable {W : Type} {out : Outside W} {box : Secretbox} {key : Key} {frozen v : Arrays}

/-! ## The loop over the slice -/

/-- The loop replaces each ID by its reference, in an array that the handler owns. -/
theorem local_encodeInitrds {s : Slice} (done todo : List Bytes)
    (owned : v s.arr = some (done ++ todo)) :
    Prog.Local (answer out box key) (owning W frozen) v
      (encodeInitrds s (List.range' done.length todo.length))
      (fun v' es _ => outsideEvents es = [] ∧ v' s.arr = some (done ++ todo.map fileRef)) := by
  induction todo generalizing done v with
  | nil => exact Prog.local_pure ⟨rfl, owned⟩
  | cons id todo ih =>
    rw [List.length_cons, List.range'_succ]
    refine (local_index (.inl owned) done.length).bind ?_
    rintro v' es x ⟨quiet, rfl, rfl⟩
    rw [getD_append_cons]
    refine (local_setIndex owned done.length (fileRef id)).bind ?_
    rintro v'' es' _ ⟨quiet', written⟩
    rw [List.set_append_right _ _ (Nat.le_refl _), Nat.sub_self, List.set_cons_zero] at written
    have rest := ih (v := v'') (done ++ [fileRef id])
      (by rw [written, List.append_assoc, List.singleton_append])
    rw [List.length_append, List.length_singleton] at rest
    refine rest.mono ?_
    rintro v''' es'' _ ⟨quiet'', final⟩
    refine ⟨by simp [quiet, quiet', quiet''], ?_⟩
    rw [final, List.append_assoc, List.singleton_append, List.map_cons]

/-- The loop over the whole slice. -/
theorem local_encodeAll {s : Slice} {ids : List Bytes} (owned : v s.arr = some ids)
    (whole : s.len = ids.length) :
    Prog.Local (answer out box key) (owning W frozen) v
      (encodeInitrds s (List.range s.len))
      (fun v' es _ => outsideEvents es = [] ∧ v' s.arr = some (ids.map fileRef)) := by
  rw [whole, List.range_eq_range']
  exact local_encodeInitrds [] ids owned

/-! ## Booters -/

/-- A boot spec is the plain one, and its slice is owned. -/
def SpecAt (v : Arrays) : Except Bytes BootSpec → Except Bytes PlainSpec → Prop
  | .error err, .error err' => err = err'
  | .ok spec, .ok plain => spec.kernel = plain.kernel ∧ spec.cmdline = plain.cmdline ∧
      v spec.initrd.arr = some plain.initrd ∧ spec.initrd.len = plain.initrd.length
  | _, _ => False

/-- A booter that may be used by several handlers at once. -/
structure Booter.Serves (out : Outside W) (box : Secretbox) (key : Key) (frozen : Arrays)
    (b : Booter) (plain : PlainBooter) : Prop where
  shouldBoot : ∀ hw, Prog.Asks (fun q => q.isOutside = true) (b.shouldBoot hw)
  bootSpec : ∀ hw, Refines out box key frozen noArrays (b.bootSpec hw) (plain.bootSpec hw) SpecAt
  file : ∀ id, Refines out box key frozen noArrays (b.file id) (plain.file id)
    (fun _ a b => a = b)

theorem outside_openAs (path pretty : Bytes) :
    Prog.Asks (fun q => q.isOutside = true) (StaticBooter.openAs path pretty) :=
  Prog.Asks.bind (Prog.asks_ask1 rfl) (fun opened => by
    cases opened with
    | error err => exact Prog.asks_pure _
    | ok f => exact Prog.asks_pure _)

theorem outside_static_file (b : StaticBooter) (id : Bytes) :
    Prog.Asks (fun q => q.isOutside = true) (b.file id) := by
  rw [StaticBooter.file]
  split
  · exact outside_openAs _ _
  · cases (atoi id).bind b.initrdPath? with
    | none => exact Prog.asks_pure _
    | some path => exact outside_openAs _ _

/-- The array of IDs, frozen. -/
def idArray (b : StaticBooter) : Arrays :=
  Function.update noArrays b.spec.initrd.arr
    (some (StaticBooter.initrdIDs b.initrdPaths.list.length))

theorem mem_idArray {b : StaticBooter} {a : Nat} {xs : List Bytes}
    (here : idArray b a = some xs) :
    a = b.spec.initrd.arr ∧ xs = StaticBooter.initrdIDs b.initrdPaths.list.length := by
  by_cases same : a = b.spec.initrd.arr
  · rw [idArray, same, Function.update_self] at here
    exact ⟨same, (Option.some.inj here).symm⟩
  · rw [idArray, Function.update_of_ne same] at here
    cases here

theorem holds_idArray {b : StaticBooter} {w : World W} (intact : Intact b w) :
    (owning W (idArray b)).holds noArrays w := by
  refine ⟨fun a xs impossible => (by cases impossible), fun a xs shared => ⟨?_, rfl⟩⟩
  obtain ⟨rfl, rfl⟩ := mem_idArray shared
  exact intact.here

theorem serves_static (b : StaticBooter)
    (whole : b.spec.initrd.len = (StaticBooter.initrdIDs b.initrdPaths.list.length).length) :
    Booter.Serves out box key (idArray b) b.booter (PlainBooter.static b) where
  shouldBoot _ := Prog.asks_pure _
  bootSpec hw := by
    refine Refines.after_memory (local_readAll (.inr (Function.update_self ..)) whole) ?_
    rintro v' _ ⟨rfl, rfl⟩
    refine Refines.after_memory (local_makeSlice _) ?_
    rintro v'' copy ⟨owned, length⟩
    exact refines_pure ⟨rfl, rfl, owned, length⟩
  file id := (refines_self (outside_static_file b id)).mono (fun _ _ _ h => h.2)

theorem outside_getSpec (b : RemoteBooter) (hw : Bytes) :
    Prog.Asks (fun q => q.isOutside = true) (b.getSpec hw) :=
  Prog.Asks.bind (Prog.asks_ask1 rfl) (fun answered => by
    cases answered with
    | error err => exact Prog.asks_pure _
    | ok resp => exact Prog.asks_pure _)

theorem outside_shouldBoot (b : RemoteBooter) (hw : Bytes) :
    Prog.Asks (fun q => q.isOutside = true) (b.shouldBoot hw) := by
  refine (outside_getSpec b hw).bind ?_
  intro spec
  cases spec with
  | error err => exact Prog.asks_pure _
  | ok r => exact Prog.asks_pure _

theorem outside_remote_file (id : Bytes) :
    Prog.Asks (fun q => q.isOutside = true) (RemoteBooter.file id) := by
  have opened : Prog.Asks (fun q => q.isOutside = true) (RemoteBooter.getURL id) := by
    rw [RemoteBooter.getURL]
    split
    · refine Prog.Asks.bind (Prog.asks_ask1 rfl) (fun found => ?_)
      cases found with
      | none => exact Prog.asks_pure _
      | some u => exact Prog.asks_pure _
    · exact Prog.asks_pure _
  refine Prog.Asks.bind opened (fun found => ?_)
  cases found with
  | error err => exact Prog.asks_pure _
  | ok u =>
    refine Prog.Asks.bind (Prog.asks_ask1 rfl) (fun fetched => ?_)
    cases fetched with
    | error err => exact Prog.asks_pure _
    | ok resp => exact Prog.asks_pure _

/-- Nothing is frozen. -/
theorem holds_noArrays (w : World W) : (owning W noArrays).holds noArrays w :=
  ⟨fun a xs impossible => (by cases impossible), fun a xs impossible => (by cases impossible)⟩

theorem serves_remote (b : RemoteBooter) :
    Booter.Serves out box key noArrays b.booter (PlainBooter.remote b) where
  shouldBoot := outside_shouldBoot b
  bootSpec hw := by
    refine (refines_self (outside_getSpec b hw)).bind ?_
    rintro v' spec _ ⟨rfl, rfl⟩
    cases spec with
    | error err => exact refines_pure rfl
    | ok r =>
      have signs := asks_signURL (P := fun q => q.isOutside = true) rfl (fun _ _ => rfl) r.kernel
      refine (refines_self signs).bind ?_
      rintro v' kernel _ ⟨rfl, rfl⟩
      cases kernel with
      | error err => exact refines_pure rfl
      | ok kernel =>
        have signs := asks_signURLs (P := fun q => q.isOutside = true) rfl (fun _ _ => rfl) r.initrd
        refine (refines_self signs).bind ?_
        rintro v' initrds _ ⟨rfl, rfl⟩
        cases initrds with
        | error err => exact refines_pure rfl
        | ok initrds =>
          refine Refines.after_memory (local_makeSlice initrds) ?_
          rintro v'' made ⟨owned, length⟩
          exact refines_pure ⟨rfl, rfl, owned, length⟩
  file id := (refines_self (outside_remote_file id)).mono (fun _ _ _ h => h.2)

/-! ## The handlers -/

section Handlers

variable {b : Booter} {plain : PlainBooter} (serves : Booter.Serves out box key frozen b plain)
  (ldlinux : Bytes)

include serves

theorem refines_configFor (mac : Bytes) :
    Refines out box key frozen noArrays ((Server.mk b ldlinux).configFor mac)
      ((PlainServer.mk plain ldlinux).configFor mac) (fun _ resp resp' => resp = resp') := by
  refine (serves.bootSpec mac).bind ?_
  intro v' spec spec' same
  cases spec with
  | error err =>
    cases spec' with
    | error err' => exact refines_pure rfl
    | ok plainSpec => exact same.elim
  | ok spec =>
    cases spec' with
    | error err' => exact same.elim
    | ok plainSpec =>
      obtain ⟨kernel, cmdline, owned, length⟩ := same
      refine Refines.after_memory (local_encodeAll owned length) ?_
      intro v'' _ rewritten
      have still : spec.initrd.len = (plainSpec.initrd.map fileRef).length := by
        rw [List.length_map, length]
      refine Refines.after_memory (local_readAll (.inl rewritten) still) ?_
      rintro v''' _ ⟨rfl, rfl⟩
      rw [kernel, cmdline]
      exact refines_pure rfl

theorem refines_serve (r : Request) :
    Refines out box key frozen noArrays ((Server.mk b ldlinux).serve r)
      ((PlainServer.mk plain ldlinux).serve r) (fun _ resp resp' => resp = resp') := by
  cases r with
  | ldlinux => exact refines_pure rfl
  | pxelinuxConfig path =>
    simp only [Server.serve, PlainServer.serve, Server.pxelinuxConfig, PlainServer.pxelinuxConfig]
    split
    · cases parseMAC ((base path).drop 3) with
      | none => exact refines_pure rfl
      | some mac => exact refines_configFor serves ldlinux mac
    · exact refines_pure rfl
  | file path =>
    simp only [Server.serve, PlainServer.serve, Server.file, PlainServer.file]
    cases Base64.decode (base path) with
    | none => exact refines_pure rfl
    | some id =>
      refine (serves.file id).bind ?_
      rintro v' found _ rfl
      cases found with
      | error err => exact refines_pure rfl
      | ok f => exact refines_pure rfl

theorem local_serve (r : Request) :
    Prog.Local (answer out box key) (owning W frozen) noArrays ((Server.mk b ldlinux).serve r)
      (fun _ es resp => Prog.Replays ((PlainServer.mk plain ldlinux).serve r)
        (outsideEvents es) resp) := by
  refine Prog.Local.mono (refines_serve serves ldlinux r) ?_
  rintro _ es resp ⟨_, replays, rfl⟩
  exact replays

section Reach

variable {w : World W} (based : (owning W frozen).holds noArrays w)
  {s : Shared Request Question Answer Response (World W)}
  (reach : Relation.ReflTransGen
    (Shared.Step (answer out box key) (Server.mk b ldlinux).serve) (Shared.empty w) s)

include based reach

/-- What is frozen stays as it is. -/
theorem frozen_holds : (owning W frozen).holds noArrays s.world :=
  Shared.base_holds (fun _ _ => .inr rfl) (local_serve serves ldlinux) based reach

/-- In any interleaving, a response is what the server without memory gives for the request. -/
theorem serve_replays {t : Nat} {r : Request} {resp : Response} (started : s.started[t]? = some r)
    (returned : s.threads[t]? = some (.ret resp)) :
    Prog.Replays ((PlainServer.mk plain ldlinux).serve r)
      (outsideEvents (Pool.own t s.trace)) resp :=
  Shared.finished (fun _ _ => .inr rfl) (local_serve serves ldlinux) based reach started returned

end Reach

end Handlers

/-! ## Both modes -/

/-- In static mode, whatever requests are served at the same time, the IDs stay as they are at every
point, and each response depends on its own request and on the file that was opened for it. -/
theorem serve_concurrent_static (out : Outside W) (box : Secretbox) (key : Key)
    (quote : Bytes → Bytes) (kernelPath : Bytes) (initrdPaths : Strings) (cmdline ldlinux : Bytes)
    (w : World W) {b : StaticBooter} {w' : World W}
    (made : ((StaticBooter.new quote kernelPath initrdPaths cmdline).run
      (answer out box key) w).2 = (b, w'))
    {s : Shared Request Question Answer Response (World W)}
    (reach : Relation.ReflTransGen
      (Shared.Step (answer out box key) (Server.mk b.booter ldlinux).serve) (Shared.empty w') s) :
    Intact b s.world ∧
    ∀ (t : Nat) (r : Request) (resp : Response), s.started[t]? = some r →
      s.threads[t]? = some (.ret resp) →
      Prog.Replays ((PlainServer.mk (PlainBooter.static b) ldlinux).serve r)
        (outsideEvents (Pool.own t s.trace)) resp := by
  have intact : Intact b w' := intact_new out box key made
  have serves : Booter.Serves out box key (idArray b) b.booter (PlainBooter.static b) :=
    serves_static b intact.whole
  have based := holds_idArray intact
  refine ⟨⟨?_, intact.whole⟩, ?_⟩
  · have still := frozen_holds serves ldlinux based reach
    exact (still.2 _ _ (Function.update_self ..)).1
  · intro t r resp started returned
    exact serve_replays serves ldlinux based reach started returned

/-- The same request twice, by two handlers that take turns. -/
def alternating (r : Request) (turns : Nat) : List (Shared.Move Request) :=
  .start r :: .start r :: (List.range turns).flatMap (fun _ => [.go 0, .go 1])

/-- Two machines that get their configurations at the same time. -/
def bothTwoInitrds : Shared Request Question Answer Response (World Nat) :=
  (alternating (.pxelinuxConfig (ascii "/pxelinux.cfg/01-00-16-3e-00-00-01")) 9).foldl
    (Shared.move (answer countingOutside clearBox zeroKey)
      (Server.mk startTwoInitrds.2.1.booter []).serve)
    (Shared.empty startTwoInitrds.2.2)

theorem serve_concurrent_static_twoInitrds :
    Intact startTwoInitrds.2.1 bothTwoInitrds.world ∧
    ∃ resp, bothTwoInitrds.threads[1]? = some (.ret resp) ∧
      Prog.Replays ((PlainServer.mk (PlainBooter.static startTwoInitrds.2.1) []).serve
          (.pxelinuxConfig (ascii "/pxelinux.cfg/01-00-16-3e-00-00-01")))
        (outsideEvents (Pool.own 1 bothTwoInitrds.trace)) resp := by
  obtain ⟨intact, replays⟩ := serve_concurrent_static countingOutside clearBox zeroKey id
    (ascii "/vmlinuz") twoInitrds (ascii "quiet") [] ⟨0, []⟩ rfl
    (Shared.reach_moves (answer countingOutside clearBox zeroKey)
      (Server.mk startTwoInitrds.2.1.booter []).serve
      (alternating (.pxelinuxConfig (ascii "/pxelinux.cfg/01-00-16-3e-00-00-01")) 9)
      (Shared.empty startTwoInitrds.2.2))
  obtain ⟨resp, returned⟩ : ∃ resp, bothTwoInitrds.threads[1]? = some (.ret resp) :=
    Prog.exists_ret_of_any (by decide +kernel)
  exact ⟨intact, resp, returned, replays 1 _ resp (by decide +kernel) returned⟩

/-- In API mode likewise: each response depends on its own request and on the answers that were
got for it. -/
theorem serve_concurrent_remote (out : Outside W) (box : Secretbox) (key : Key)
    (b : RemoteBooter) (ldlinux : Bytes) (w : World W)
    {s : Shared Request Question Answer Response (World W)}
    (reach : Relation.ReflTransGen
      (Shared.Step (answer out box key) (Server.mk b.booter ldlinux).serve) (Shared.empty w) s)
    {t : Nat} {r : Request} {resp : Response} (started : s.started[t]? = some r)
    (returned : s.threads[t]? = some (.ret resp)) :
    Prog.Replays ((PlainServer.mk (PlainBooter.remote b) ldlinux).serve r)
      (outsideEvents (Pool.own t s.trace)) resp :=
  serve_replays (serves_remote b) ldlinux (holds_noArrays w) reach started returned

/-- Two machines whose configurations are made at the same time, with nonces that alternate. -/
def bothTwoFiles : Shared Request Question Answer Response (World Nat) :=
  (alternating (.pxelinuxConfig (ascii "/pxelinux.cfg/01-00-16-3e-00-00-01")) 9).foldl
    (Shared.move (answer countingOutside clearBox zeroKey) (Server.mk twoFiles.booter []).serve)
    (Shared.empty ⟨0, []⟩)

theorem serve_concurrent_remote_twoFiles :
    ∃ resp, bothTwoFiles.threads[1]? = some (.ret resp) ∧
      Prog.Replays ((PlainServer.mk (PlainBooter.remote twoFiles) []).serve
          (.pxelinuxConfig (ascii "/pxelinux.cfg/01-00-16-3e-00-00-01")))
        (outsideEvents (Pool.own 1 bothTwoFiles.trace)) resp := by
  obtain ⟨resp, returned⟩ : ∃ resp, bothTwoFiles.threads[1]? = some (.ret resp) :=
    Prog.exists_ret_of_any (by decide +kernel)
  refine ⟨resp, returned, serve_concurrent_remote countingOutside clearBox zeroKey twoFiles []
    ⟨0, []⟩ ?_ (by decide +kernel) returned⟩
  exact Shared.reach_moves _ _ _ _

end Pixiecore.Http
