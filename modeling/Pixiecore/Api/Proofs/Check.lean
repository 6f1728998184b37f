import Pixiecore.Api.Booter

/-!
# Which API responses are accepted

`getSpec` accepts a 200 response that decodes and in which every URL parses and has a scheme.
-/

namespace Pixiecore.Api

/-- `url.Parse` succeeds and `IsAbs` holds. -/
def Absolute (lib : Libs) (u : Bytes) : Prop := HasScheme u ∧ lib.urlError u = none

theorem parseURL_ok_iff {lib : Libs} {u scheme : Bytes} :
    parseURL lib u = .ok scheme ↔ getScheme [] u = some scheme ∧ lib.urlError u = none := by
  unfold parseURL
  constructor
  · intro parsed
    split at parsed
    · cases parsed
    · rename_i found same
      split at parsed
      · cases parsed
      · rename_i good
        cases parsed
        exact ⟨same, good⟩
  · rintro ⟨found, good⟩
    simp only [found, good]

/-- The two ways in which a URL is found not to be absolute. -/
theorem parseURL_cases (lib : Libs) (u : Bytes) :
    (∃ err, parseURL lib u = .error err ∧ ¬ Absolute lib u) ∨
    (∃ scheme, parseURL lib u = .ok scheme ∧ (scheme ≠ [] ↔ Absolute lib u)) := by
  rcases parsed : parseURL lib u with err | scheme
  · refine Or.inl ⟨err, rfl, ?_⟩
    rintro ⟨⟨scheme, found, _⟩, good⟩
    rw [parseURL_ok_iff.mpr ⟨found, good⟩] at parsed
    cases parsed
  · obtain ⟨found, good⟩ := parseURL_ok_iff.mp parsed
    refine Or.inr ⟨scheme, rfl, fun nonempty => ⟨⟨scheme, found, nonempty⟩, good⟩, ?_⟩
    rintro ⟨⟨scheme', found', nonempty⟩, _⟩
    rw [found] at found'
    cases found'
    exact nonempty

section Check

variable {b : RemoteBooter} {reqURL : Bytes}

theorem checkAbsolute_ok_iff (what raw quoted : Bytes) :
    b.checkAbsolute reqURL what raw quoted = .ok () ↔ Absolute b.lib raw := by
  unfold RemoteBooter.checkAbsolute
  rcases parseURL_cases b.lib raw with ⟨err, parsed, bad⟩ | ⟨scheme, parsed, same⟩
  · simp [parsed, bad]
  · by_cases empty : scheme = []
    · simp [parsed, ← same, empty]
    · simp [parsed, ← same, empty]

theorem checkInitrds_ok_iff {imgs : List Bytes} :
    b.checkInitrds reqURL imgs = .ok () ↔ ∀ u ∈ imgs, Absolute b.lib u := by
  induction imgs with
  | nil => exact ⟨fun _ _ member => absurd member List.not_mem_nil, fun _ => rfl⟩
  | cons img rest ih =>
    unfold RemoteBooter.checkInitrds
    have here : b.checkInitrd reqURL img = .ok () ↔ Absolute b.lib img :=
      checkAbsolute_ok_iff ..
    rw [List.forall_mem_cons, ← ih, ← here]
    rcases first : b.checkInitrd reqURL img with err | _
    · simp
    · simp

theorem checkSpec_ok_iff {resp : HTTPResponse} {r : SpecJSON} :
    b.checkSpec reqURL resp = .ok r ↔
      resp.statusCode = 200 ∧ b.lib.decode resp.body = .ok r ∧
        ∀ u ∈ r.urls, Absolute b.lib u := by
  unfold RemoteBooter.checkSpec
  by_cases status : resp.statusCode = 200
  · rw [if_neg (not_not.mpr status)]
    rcases decoded : b.lib.decode resp.body with err | r'
    · simp
    · have kernel : b.checkKernel reqURL r'.kernel = .ok () ↔ Absolute b.lib r'.kernel :=
        checkAbsolute_ok_iff ..
      have initrds : b.checkInitrds reqURL r'.initrd = .ok () ↔
          ∀ u ∈ r'.initrd, Absolute b.lib u := checkInitrds_ok_iff
      have all : (∀ u ∈ r'.urls, Absolute b.lib u) ↔
          b.checkKernel reqURL r'.kernel = .ok () ∧ b.checkInitrds reqURL r'.initrd = .ok () := by
        rw [kernel, initrds]
        exact List.forall_mem_cons
      have named : (r' = r ∧ ∀ u ∈ r.urls, Absolute b.lib u) ↔
          r' = r ∧ ∀ u ∈ r'.urls, Absolute b.lib u := by
        constructor
        · rintro ⟨rfl, good⟩
          exact ⟨rfl, good⟩
        · rintro ⟨rfl, good⟩
          exact ⟨rfl, good⟩
      simp only [Except.ok.injEq, status, true_and, named, all]
      rcases b.checkKernel reqURL r'.kernel with _ | _
      · simp
      · rcases b.checkInitrds reqURL r'.initrd with _ | _
        · simp
        · simp
  · rw [if_pos status]
    simp [status]

end Check

end Pixiecore.Api
