import Pixiecore.Dhcp.Proofs.Offer
import Pixiecore.Pxe.Proofs.Parse

/-!
# What a PXE reply says

`ReplyPXE` writes the boot type of the request behind the fixed length bytes 7 and 4.
The parser accepts a boot type of any length, so the reply is in step with its own
length bytes exactly when the client sent four bytes, and otherwise the client reads
an option 43 that was not meant.
-/

namespace Pixiecore.Pxe

open Dhcp

/-! ## The fixed part -/

/-- What `ReplyPXE` copies into the fixed part. -/
def replyCopies (p : PXEPacket) : List (Nat × Bytes) :=
  [(4, p.tid), (16, p.clientIP), (20, p.serverIPBytes), (28, p.mac), (108, ascii "boot")]

theorem replyBootp_eq (p : PXEPacket) : replyBootp p = copyAll bootpReply (replyCopies p) := rfl

theorem length_replyBootp (p : PXEPacket) : (replyBootp p).length = 236 := by
  rw [replyBootp_eq, length_copyAll, length_bootpReply]

/-- What follows the option 97 of a reply and the two bytes `43, 7`. -/
def replyTail (p : PXEPacket) : Bytes :=
  71 :: 4 :: (p.bootTypeBytes ++ 255 :: 210 :: UInt8.ofNat p.httpServer.length ::
    (p.httpServer ++ 211 :: 4 :: ([0, 0, 0, 5] ++ [255])))

/-- The options of a reply, from the one after the magic cookie to END. -/
def replyOptions (p : PXEPacket) : Bytes :=
  53 :: 1 :: ([5] ++ 54 :: 4 :: (p.serverIPBytes ++ 60 :: 9 :: (ascii "PXEClient" ++
    97 :: 17 :: ((0 :: p.guidBytes) ++ 43 :: 7 :: replyTail p))))

theorem replyPXE_eq (p : PXEPacket) :
    replyPXE p = replyBootp p ++ (dhcpMagic ++ replyOptions p) := by
  simp [replyPXE, replyOptions, replyTail]

theorem slice_replyPXE (p : PXEPacket) {lo hi : Nat} (h : hi ≤ 236) :
    slice (replyPXE p) lo hi = slice (replyBootp p) lo hi := by
  rw [replyPXE_eq]
  exact slice_packet (length_replyBootp p) _ h

theorem slice_replyPXE_magic (p : PXEPacket) : slice (replyPXE p) 236 240 = dhcpMagic := by
  rw [replyPXE_eq]
  exact slice_packet_magic (length_replyBootp p) _

theorem drop_replyPXE (p : PXEPacket) : (replyPXE p).drop 240 = replyOptions p := by
  rw [replyPXE_eq]
  exact drop_packet (length_replyBootp p) _

section Sized

variable {p : PXEPacket} (sized : p.Sized)

include sized

theorem replyCopies_fit : ∀ w ∈ replyCopies p, w.1 + w.2.length ≤ bootpReply.length := by
  have name : (ascii "boot").length = 4 := by decide
  simp [replyCopies, length_bootpReply, sized.tid, sized.clientIP, sized.serverIP, sized.mac, name]

theorem replyCopies_apart : (replyCopies p).Pairwise Apart := by
  simp [replyCopies, Apart, sized.tid, sized.clientIP, sized.serverIP, sized.mac]

theorem slice_replyPXE_header : slice (replyPXE p) 0 4 = [2, 1, 6, 0] := by
  rw [slice_replyPXE p (by omega), replyBootp_eq]
  exact slice_copyAll_bootpReply (replyCopies_fit sized) (by simp [replyCopies])

/-- Each of the five copies can be read back from the reply. -/
theorem slice_replyPXE_copy {off hi : Nat} {src : Bytes} (member : (off, src) ∈ replyCopies p)
    (hhi : hi = off + src.length) : slice (replyPXE p) off hi = src := by
  have fits := replyCopies_fit sized _ member
  rw [length_bootpReply] at fits
  rw [slice_replyPXE p (by rw [hhi]; exact fits), replyBootp_eq]
  exact slice_copyAll_mem _ _ member hhi (replyCopies_fit sized) (replyCopies_apart sized)

/-! ## The options -/

/-- The first four options of a reply are in step whatever the boot type is. -/
theorem options_replyPXE_front :
    options ((replyPXE p).drop 240) =
      ((53, [5]) :: (54, p.serverIPBytes) :: (60, ascii "PXEClient") :: (97, 0 :: p.guidBytes) ::
        (options (43 :: 7 :: replyTail p)).1, (options (43 :: 7 :: replyTail p)).2) := by
  rw [drop_replyPXE]
  unfold replyOptions
  rw [options_cons _ _ _ _ (by decide) (by decide),
    options_cons _ _ _ _ (by decide) (by rw [sized.serverIP]; rfl),
    options_cons _ _ _ _ (by decide) (by decide),
    options_cons _ _ _ _ (by decide) (by rw [List.length_cons, sized.guid]; rfl)]

omit sized in
/-- Option 43 of a reply takes seven bytes, of which the first six are a sub-option 71
with whatever four bytes stand there. -/
theorem options_replyTail (p : PXEPacket) :
    ∃ four last rest, replyTail p = (71 :: 4 :: (four ++ [last])) ++ rest ∧
      four.length = 4 ∧
      options (43 :: 7 :: replyTail p) =
        ((43, 71 :: 4 :: (four ++ [last])) :: (options rest).1, (options rest).2) ∧
      (options (71 :: 4 :: (four ++ [last]))).1 = [(71, four)] := by
  let body := p.bootTypeBytes ++ 255 :: 210 :: UInt8.ofNat p.httpServer.length ::
    (p.httpServer ++ 211 :: 4 :: ([0, 0, 0, 5] ++ [255]))
  have long : 5 ≤ body.length := by simp [body]; omega
  have four : (body.take 4).length = 4 := by rw [List.length_take]; omega
  obtain ⟨last, rest, after⟩ : ∃ last rest, body.drop 4 = last :: rest := by
    cases dropped : body.drop 4 with
    | nil =>
      have := List.drop_eq_nil_iff.mp dropped
      omega
    | cons last rest => exact ⟨last, rest, rfl⟩
  have shape : replyTail p = (71 :: 4 :: (body.take 4 ++ [last])) ++ rest := by
    have : body = body.take 4 ++ last :: rest := by rw [← after, List.take_append_drop]
    simp only [replyTail, List.cons_append, List.append_assoc, List.nil_append]
    exact congrArg (fun x => 71 :: 4 :: x) this
  refine ⟨body.take 4, last, rest, shape, four, ?_, ?_⟩
  · rw [shape, options_cons _ _ _ _ (by decide) (by simp [four])]
  · have lone : (options [last]).1 = [] := by
      rw [options_eq_split, Tlv.split_stuck (show Tlv.Stuck 255 [last] from rfl)]
      rfl
    rw [options_cons _ _ _ _ (by decide) (by rw [four]; rfl), lone]

/-- With a boot type of four bytes every length byte of the reply is right. -/
theorem options_replyPXE_four (four : p.bootTypeBytes.length = 4) :
    options ((replyPXE p).drop 240) =
      ([(53, [5]), (54, p.serverIPBytes), (60, ascii "PXEClient"), (97, 0 :: p.guidBytes),
        (43, 71 :: 4 :: (p.bootTypeBytes ++ [255])), (210, p.httpServer), (211, [0, 0, 0, 5])],
        [255]) := by
  have shape : replyTail p = (71 :: 4 :: (p.bootTypeBytes ++ [255])) ++
      210 :: UInt8.ofNat p.httpServer.length ::
        (p.httpServer ++ 211 :: 4 :: ([0, 0, 0, 5] ++ [255])) := by
    simp [replyTail]
  have url : p.httpServer.length = (UInt8.ofNat p.httpServer.length).toNat := by
    have := sized.httpServer
    rw [UInt8.toNat_ofNat']
    omega
  rw [options_replyPXE_front sized, shape, options_cons _ _ _ _ (by decide) (by simp [four]),
    options_cons _ _ _ _ (by decide) url, options_cons _ _ _ _ (by decide) (by decide),
    options_end]

end Sized

/-- The reply `r` mirrors the request `b`, for a server at `ip` that serves `url`. -/
structure MirrorsRequest (b : Bytes) (ip : IPv4) (url : Bytes) (r : Bytes) : Prop where
  tid : slice r 4 8 = slice b 4 8
  clientIP : slice r 16 20 = slice b 12 16
  serverIP : slice r 20 24 = ip.bytes
  mac : slice r 28 34 = slice b 28 34
  magic : slice r 236 240 = dhcpMagic
  options : ∃ guid v bootType,
    requestGUID (options (b.drop 240)).1 = some guid ∧ guid.length = 16 ∧
    requestBootType (options (b.drop 240)).1 = some bootType ∧
    options (r.drop 240) =
      ([(53, [5]), (54, ip.bytes), (60, ascii "PXEClient"), (97, 0 :: guid), (43, v),
        (210, url), (211, [0, 0, 0, 5])], [255]) ∧
    (options v).1 = [(71, bootType)]

/-- The boot type of a request, as `ParsePXE` picks it, has four bytes. -/
def FourByteBootType (b : Bytes) : Prop :=
  (requestBootType (options (b.drop 240)).1).map List.length = some 4

/-- A reply mirrors its request exactly when the request's boot type has four bytes. -/
theorem replyPXE_mirrorsRequest_iff (b : Bytes) (ip : IPv4) (httpPort : Int64) (p : PXEPacket)
    (accepted : parsePXE b = .ok p) :
    MirrorsRequest b ip (httpServerURL ip httpPort) (replyPXE (p.answeredBy ip httpPort)) ↔
      FourByteBootType b := by
  have sized := sized_of_parsePXE accepted ip httpPort
  obtain ⟨tid, mac, clientIP, guid, choice⟩ := fields_of_parsePXE accepted
  rw [FourByteBootType, choice, Option.map_some, Option.some.injEq]
  constructor
  · intro mirrors
    obtain ⟨_, v, sent, -, -, foundSent, decoded, single⟩ := mirrors.options
    -- the seven bytes after `43, 7` hold a sub-option 71 of four bytes in any case
    obtain ⟨four, last, rest, -, len, inner, only⟩ := options_replyTail (p.answeredBy ip httpPort)
    rw [options_replyPXE_front sized, inner] at decoded
    have same : 71 :: 4 :: (four ++ [last]) = v := by
      simp only [Prod.mk.injEq, List.cons.injEq] at decoded
      exact decoded.1.2.2.2.2.1.2
    rw [← same, only] at single
    simp only [List.cons.injEq, Prod.mk.injEq, true_and, and_true] at single
    rw [choice, Option.some.injEq] at foundSent
    rw [foundSent, ← single, len]
  · intro four
    have len : (p.answeredBy ip httpPort).bootTypeBytes.length = 4 := four
    have copies : replyCopies (p.answeredBy ip httpPort) =
        [(4, slice b 4 8), (16, slice b 12 16), (20, ip.bytes), (28, slice b 28 34),
          (108, ascii "boot")] := by
      rw [← tid, ← mac, ← clientIP]
      rfl
    have back : ∀ off src, (off, src) ∈ replyCopies (p.answeredBy ip httpPort) →
        slice (replyPXE (p.answeredBy ip httpPort)) off (off + src.length) = src :=
      fun off src member => slice_replyPXE_copy sized member rfl
    have long := ((parsePXE_ok_iff b p).mp accepted).1
    rw [copies] at back
    refine ⟨?_, ?_, ?_, ?_, slice_replyPXE_magic _, p.guidBytes, _, p.bootTypeBytes, guid,
      sized.guid, choice, options_replyPXE_four sized len, ?_⟩
    · simpa [length_slice b 4 8 (by omega)] using back 4 (slice b 4 8) (by simp)
    · simpa [length_slice b 12 16 (by omega)] using back 16 (slice b 12 16) (by simp)
    · simpa using back 20 ip.bytes (by simp)
    · simpa [length_slice b 28 34 (by omega)] using back 28 (slice b 28 34) (by simp)
    · rw [options_cons _ _ _ _ (by decide) (by rw [len]; rfl), options_end]
      rfl

/-- A request for boot type `bootType`. -/
def menuRequest (bootType : Bytes) : Bytes :=
  [1, 1, 6, 0, 1, 2, 3, 4, 0, 0, 0, 0, 10, 0, 0, 9] ++ List.replicate 12 0 ++
    [2, 0, 0, 0, 0, 9] ++ List.replicate 202 0 ++ dhcpMagic ++
    [97, 17, 0] ++ List.replicate 16 7 ++
    [43, UInt8.ofNat (bootType.length + 3), 71, UInt8.ofNat bootType.length] ++ bootType ++
    [255, 255]

/-- What `ParsePXE` makes of `menuRequest`. -/
def menuRequested (bootType : Bytes) : PXEPacket :=
  { tid := [1, 2, 3, 4], mac := [2, 0, 0, 0, 0, 9], clientIP := [10, 0, 0, 9],
    guid := some (List.replicate 16 7), bootType := some bootType }

/-- The usual boot type has four bytes. -/
theorem parsePXE_menuRequest :
    parsePXE (menuRequest [0x80, 0, 0, 0]) = .ok (menuRequested [0x80, 0, 0, 0]) := by
  decide +kernel

/-- The reply to a client that sends the usual four bytes. -/
theorem replyPXE_mirrors_menuRequest :
    parsePXE (menuRequest [0x80, 0, 0, 0]) = .ok (menuRequested [0x80, 0, 0, 0]) ∧
      MirrorsRequest (menuRequest [0x80, 0, 0, 0]) ⟨192, 168, 0, 1⟩
        (httpServerURL ⟨192, 168, 0, 1⟩ 70)
        (replyPXE ((menuRequested [0x80, 0, 0, 0]).answeredBy ⟨192, 168, 0, 1⟩ 70)) := by
  have mirrors := replyPXE_mirrorsRequest_iff _ ⟨192, 168, 0, 1⟩ 70 _ parsePXE_menuRequest
  refine ⟨parsePXE_menuRequest, mirrors.mpr ?_⟩
  unfold FourByteBootType
  decide +kernel

/-- A client that sends a boot type of two bytes is accepted, and its reply is out of step. -/
theorem replyPXE_garbles_menuRequest :
    parsePXE (menuRequest [0x80, 0]) = .ok (menuRequested [0x80, 0]) ∧
      ¬ MirrorsRequest (menuRequest [0x80, 0]) ⟨192, 168, 0, 1⟩
        (httpServerURL ⟨192, 168, 0, 1⟩ 70)
        (replyPXE ((menuRequested [0x80, 0]).answeredBy ⟨192, 168, 0, 1⟩ 70)) := by
  refine ⟨by decide +kernel, fun mirrors => ?_⟩
  obtain ⟨guid, v, bootType, -, -, -, decoded, -⟩ := mirrors.options
  have read : ((options ((replyPXE ((menuRequested [0x80, 0]).answeredBy
      ⟨192, 168, 0, 1⟩ 70)).drop 240)).1).length = 5 := by decide +kernel
  rw [decoded] at read
  exact absurd read (by simp)

end Pixiecore.Pxe
