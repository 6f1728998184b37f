import Pixiecore.Api.Booter
import Pixiecore.Misc.View

/-!
# `getURL` and its bounds

`getURL` over a string as a slice of bytes, with the array that the nonce is copied into. It
stays within bounds, and asks `secretbox` what it asks for the bytes.
-/

namespace Pixiecore.Api.RemoteBooter

variable {n : Nat}

/-- `var nonce [24]byte; copy(nonce[:], signed)`. -/
def copyNonce (signed : Bytes) : Nonce :=
  ⟨copyAt (List.replicate 24 0) 0 signed, by rw [length_copyAt, List.length_replicate]⟩

theorem copyNonce_eq_nonceOf (signed : Bytes) (h : 24 ≤ signed.length) :
    copyNonce signed = nonceOf signed h := by
  have read := readFrom_snd (List.replicate 24 (0 : UInt8)) signed
  have full : (copyNonce signed).bytes.take 24 = (copyNonce signed).bytes :=
    List.take_of_length_le (Nat.le_of_eq (copyNonce signed).size)
  rw [readFrom, List.length_replicate, Nat.min_eq_right h] at read
  rw [Nonce.mk.injEq, ← full]
  exact read

/-- `getURL`. -/
def getURLIn (mem : Memory n) (signed : View n) : Option (Program (Except Bytes Bytes)) :=
  if signed.len < 24 then some (pure (.error (ascii "signed blob too short to be valid")))
  else do
    let box ← signed.drop 24
    some do
      match ← secretboxOpen (copyNonce (signed.bytes mem)) (box.bytes mem) with
      | none => pure (.error (ascii "signature verification failed"))
      | some out => pure (.ok out)

theorem getURLIn_returns (mem : Memory n) (signed : View n) :
    Returns (getURLIn mem signed) (fun program => program = getURL (signed.bytes mem)) := by
  have length := View.length_bytes mem signed
  rw [getURLIn, getURL]
  split
  · next short =>
    rw [dif_neg (by omega)]
    exact returns_some rfl
  · next long =>
    rw [dif_pos (by omega)]
    apply (View.drop_returns mem signed (by omega)).bind
    intro box isBox
    rw [isBox, copyNonce_eq_nonceOf _ (by omega)]
    exact returns_some rfl

end Pixiecore.Api.RemoteBooter
