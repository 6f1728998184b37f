import Pixiecore.Pxe.Lan
import Pixiecore.Pxe.Proofs.Reply

/-!
# Replies that come back as requests

An offer is never taken for a request, and a PXE reply is never taken for a DHCP
request: both say BOOTP operation 2, and an offer has no menu selection. `ParsePXE`
does not look at the operation, however, so a PXE reply does pass for a PXE request,
unless the boot type that it mirrors is so long that something in it is read as a
malformed option 97.
-/

namespace Pixiecore.Pxe

open Dhcp

/-! ## Single replies -/

theorem parseDHCP_ne_ok_of_op {b : Bytes} (op : byteAt b 0 ≠ 1) (p : DHCPPacket) :
    parseDHCP b ≠ .ok p := by
  intro accepted
  exact op ((parseDHCP_ok_iff b p).mp accepted).2.1

theorem parseDHCP_offerDHCP {p : DHCPPacket} (sized : p.Sized) (q : DHCPPacket) :
    parseDHCP (offerDHCP p) ≠ .ok q := by
  apply parseDHCP_ne_ok_of_op
  rw [byteAt_offerDHCP sized (by omega)]
  decide

theorem parsePXE_offerDHCP {p : DHCPPacket} (sized : p.Sized) (q : PXEPacket) :
    parsePXE (offerDHCP p) ≠ .ok q := by
  intro accepted
  obtain ⟨-, -, -, -, choice, -⟩ := (parsePXE_ok_iff _ q).mp accepted
  apply choice
  rw [options_offerDHCP sized, requestBootType]
  simp [lastSome, menuChoice, options_offerVendorOptions sized, valueOf]

/-- However little of a PXE reply arrives, it is no DHCP request. -/
theorem parseDHCP_take_replyPXE {p : PXEPacket} (sized : p.Sized) (n : Nat) (q : DHCPPacket) :
    parseDHCP ((replyPXE p).take n) ≠ .ok q := by
  intro accepted
  have long := ((parseDHCP_ok_iff _ q).mp accepted).1
  rw [List.length_take] at long
  refine parseDHCP_ne_ok_of_op ?_ q accepted
  rw [byteAt_eq_getElem?, List.getElem?_take, if_pos (by omega), ← byteAt_eq_getElem?,
    byteAt_of_slice _ (by omega : 0 < 4), slice_replyPXE_header sized]
  decide

theorem length_offerDHCP {p : DHCPPacket} (sized : p.Sized) : (offerDHCP p).length = 321 := by
  have magic : dhcpMagic.length = 4 := rfl
  have name : (ascii "PXEClient").length = 9 := by decide
  simp only [offerDHCP_eq, offerOptions, List.length_append, List.length_cons, List.length_nil,
    length_offerBootp, length_offerVendorOptions sized, sized.serverIP, sized.guid, magic, name]

/-! ## What a PXE server reads in a reply -/

/-- What follows the boot type in a reply. -/
def replyEnd (url : Bytes) : Bytes :=
  255 :: 210 :: UInt8.ofNat url.length :: (url ++ 211 :: 4 :: ([0, 0, 0, 5] ++ [255]))

/-- The options behind the seven bytes of a reply's option 43. They begin with the sixth byte of
the boot type, if it has so many. -/
def behindMenu (bootType url : Bytes) : List (UInt8 × Bytes) :=
  (options ((bootType ++ replyEnd url).drop 5)).1

section Sized

variable {p : PXEPacket} (sized : p.Sized)

include sized

theorem options_replyPXE :
    ∃ last, (options ((replyPXE p).drop 240)).1 =
        (53, [5]) :: (54, p.serverIPBytes) :: (60, ascii "PXEClient") :: (97, 0 :: p.guidBytes) ::
          (43, 71 :: 4 :: ((p.bootTypeBytes ++ replyEnd p.httpServer).take 4 ++ [last])) ::
            behindMenu p.bootTypeBytes p.httpServer ∧
      (options (71 :: 4 :: ((p.bootTypeBytes ++ replyEnd p.httpServer).take 4 ++ [last]))).1 =
        [(71, (p.bootTypeBytes ++ replyEnd p.httpServer).take 4)] := by
  obtain ⟨four, last, rest, shape, len, inner, only⟩ := options_replyTail p
  have body : p.bootTypeBytes ++ replyEnd p.httpServer = four ++ last :: rest := by
    have both : 71 :: 4 :: (p.bootTypeBytes ++ replyEnd p.httpServer) =
        71 :: 4 :: (four ++ [last]) ++ rest := shape
    simpa using both
  have front : (four ++ last :: rest).take 4 = four := List.take_left' len
  have back : (four ++ last :: rest).drop 5 = rest := by
    rw [← List.drop_drop (i := 1) (j := 4), List.drop_left' len]
    rfl
  refine ⟨last, ?_, ?_⟩
  · rw [options_replyPXE_front sized, inner, behindMenu, body, front, back]
  · rw [body, front]
    exact only

/-- When a PXE server takes a reply for a request, and for which. -/
theorem parsePXE_replyPXE_ok_iff (q : PXEPacket) :
    parsePXE (replyPXE p) = .ok q ↔
      (∀ o ∈ behindMenu p.bootTypeBytes p.httpServer, WellFormedGUID o) ∧
      q = { tid := p.tid, mac := p.mac, clientIP := [0, 0, 0, 0],
            guid := (requestGUID (behindMenu p.bootTypeBytes p.httpServer)).or (some p.guidBytes),
            bootType := (requestBootType (behindMenu p.bootTypeBytes p.httpServer)).or
              (some ((p.bootTypeBytes ++ replyEnd p.httpServer).take 4)) } := by
  have magic : dhcpMagic.length = 4 := rfl
  have long : 240 ≤ (replyPXE p).length := by
    rw [replyPXE_eq, List.length_append, List.length_append, length_replyBootp, magic]
    omega
  have tid : slice (replyPXE p) 4 8 = p.tid :=
    slice_replyPXE_copy sized (by simp [replyCopies]) (by rw [sized.tid])
  have mac : slice (replyPXE p) 28 34 = p.mac :=
    slice_replyPXE_copy sized (by simp [replyCopies]) (by rw [sized.mac])
  have clientIP : slice (replyPXE p) 12 16 = [0, 0, 0, 0] := by
    rw [slice_replyPXE p (by omega), replyBootp_eq,
      slice_copyAll_disjoint _ _ _ _ (replyCopies_fit sized) (by simp [replyCopies, sized.tid])]
    decide
  obtain ⟨last, opts, menu⟩ := options_replyPXE sized
  have guid : requestGUID (options ((replyPXE p).drop 240)).1 =
      (requestGUID (behindMenu p.bootTypeBytes p.httpServer)).or (some p.guidBytes) := by
    rw [opts]
    simp only [requestGUID, lastOption, lastSome_cons, valueOf]
    cases lastSome (valueOf 97) (behindMenu p.bootTypeBytes p.httpServer) <;> rfl
  have choice : requestBootType (options ((replyPXE p).drop 240)).1 =
      (requestBootType (behindMenu p.bootTypeBytes p.httpServer)).or
        (some ((p.bootTypeBytes ++ replyEnd p.httpServer).take 4)) := by
    rw [opts]
    simp [requestBootType, lastSome_cons, menuChoice, menu, valueOf]
  have formed : (∀ o ∈ (options ((replyPXE p).drop 240)).1, WellFormedGUID o) ↔
      ∀ o ∈ behindMenu p.bootTypeBytes p.httpServer, WellFormedGUID o := by
    rw [opts]
    simp [WellFormedGUID, byteAt, sized.guid]
  rw [parsePXE_ok_iff, tid, mac, clientIP, guid, choice, formed]
  simp [long, slice_replyPXE_magic]

end Sized


/-! ## Short boot types -/

section Short

variable (ip : IPv4) (httpPort : Int64) {bootType : Bytes}

/-- Fewer than four bytes put the loop at the length of the URL or at one of its first letters, and
the letter after it promises more bytes than there are. -/
theorem behindMenu_of_lt (few : bootType.length < 4) :
    behindMenu bootType (httpServerURL ip httpPort) = [] := by
  obtain ⟨len, rest, shape, size⟩ : ∃ len rest, replyEnd (httpServerURL ip httpPort) =
      255 :: 210 :: len :: 104 :: 116 :: 116 :: 112 :: rest ∧ rest.length ≤ 47 := by
    refine ⟨_, (httpServerURL ip httpPort).drop 4 ++ [211, 4, 0, 0, 0, 5, 255], rfl, ?_⟩
    have small := length_httpServerURL_le ip httpPort
    simp only [List.length_append, List.length_drop, List.length_cons, List.length_nil]
    omega
  rw [behindMenu, shape]
  match bootType, few with
  | [], _ =>
    refine options_cut ?_
    simp only [UInt8.reduceToNat]
    omega
  | [_], _ =>
    refine options_cut ?_
    simp only [List.length_cons, UInt8.reduceToNat]
    omega
  | [_, _], _ =>
    refine options_cut ?_
    simp only [List.length_cons, UInt8.reduceToNat]
    omega
  | [_, _, _], _ =>
    refine options_cut ?_
    simp only [List.length_cons, UInt8.reduceToNat]
    omega

/-- Four bytes are in step with the length bytes. -/
theorem behindMenu_four (four : bootType.length = 4) :
    behindMenu bootType (httpServerURL ip httpPort) =
      [(210, httpServerURL ip httpPort), (211, [0, 0, 0, 5])] := by
  have small := length_httpServerURL_le ip httpPort
  have url : (httpServerURL ip httpPort).length =
      (UInt8.ofNat (httpServerURL ip httpPort).length).toNat := by
    rw [UInt8.toNat_ofNat']
    omega
  have rest : (bootType ++ replyEnd (httpServerURL ip httpPort)).drop 5 =
      (replyEnd (httpServerURL ip httpPort)).drop 1 := by
    rw [List.drop_append, four, List.drop_of_length_le (by omega), List.nil_append]
  rw [behindMenu, rest, replyEnd, List.drop_one, List.tail_cons,
    options_cons _ _ _ _ (by decide) url, options_cons _ _ _ _ (by decide) (by decide),
    options_end]

/-- From five bytes on, what is read begins inside the boot type. -/
theorem behindMenu_of_le {url : Bytes} (five : 5 ≤ bootType.length) :
    behindMenu bootType url = (options (bootType.drop 5 ++ replyEnd url)).1 := by
  rw [behindMenu, List.drop_append_of_le_length five]

/-- Up to five bytes, nothing is read but what `ReplyPXE` wrote there. -/
theorem behindMenu_short (short : bootType.length ≤ 5) :
    ∀ o ∈ behindMenu bootType (httpServerURL ip httpPort), o.1 = 210 ∨ o.1 = 211 := by
  intro o member
  rcases Nat.lt_trichotomy bootType.length 4 with few | four | more
  · rw [behindMenu_of_lt ip httpPort few] at member
    cases member
  · rw [behindMenu_four ip httpPort four] at member
    rcases List.mem_pair.mp member with rfl | rfl
    · exact .inl rfl
    · exact .inr rfl
  · rw [behindMenu_of_le more, List.drop_of_length_le short, List.nil_append, replyEnd,
      options_end] at member
    cases member

/-- A reply with a boot type of at most five bytes is taken for a request with one of four. -/
theorem parsePXE_replyPXE_short {p : PXEPacket} (sized : p.Sized)
    (short : p.bootTypeBytes.length ≤ 5) (url : p.httpServer = httpServerURL ip httpPort) :
    ∃ q, parsePXE (replyPXE p) = .ok q ∧ q.bootTypeBytes.length = 4 := by
  have only := behindMenu_short ip httpPort short
  rw [← url] at only
  have noMenu : requestBootType (behindMenu p.bootTypeBytes p.httpServer) = none := by
    refine lastSome_eq_none.mpr fun o member => if_neg fun menu => ?_
    rcases only o member with is | is
    · exact absurd (menu.symm.trans is) (by decide)
    · exact absurd (menu.symm.trans is) (by decide)
  refine ⟨_, (parsePXE_replyPXE_ok_iff sized _).mpr ⟨fun o member is => ?_, rfl⟩, ?_⟩
  · rcases only o member with is' | is'
    · exact absurd (is.symm.trans is') (by decide)
    · exact absurd (is.symm.trans is') (by decide)
  · have long : 4 ≤ (replyEnd p.httpServer).length := by
      rw [replyEnd]
      simp only [List.length_cons, List.length_append]
      omega
    rw [PXEPacket.bootTypeBytes, noMenu, Option.none_or, Option.getD_some, List.length_take,
      List.length_append]
    omega

end Short

/-- Among the options that a PXE server reads in its own reply from the sixth byte of the
request's boot type on, there is a malformed option 97. -/
def MalformedBehindMenu (b url : Bytes) : Prop :=
  ∃ bootType, requestBootType (options (b.drop 240)).1 = some bootType ∧ 5 ≤ bootType.length ∧
    ∃ o ∈ (options (bootType.drop 5 ++ replyEnd url)).1, ¬ WellFormedGUID o

/-- A reply is rejected as a request exactly when there is. -/
theorem parsePXE_replyPXE_ne_ok_iff {b : Bytes} {p : PXEPacket} (accepted : parsePXE b = .ok p)
    (ip : IPv4) (httpPort : Int64) :
    (∀ q, parsePXE (replyPXE (p.answeredBy ip httpPort)) ≠ .ok q) ↔
      MalformedBehindMenu b (httpServerURL ip httpPort) := by
  have sized := sized_of_parsePXE accepted ip httpPort
  have choice := (fields_of_parsePXE accepted).2.2.2.2
  constructor
  · intro rejected
    refine ⟨p.bootTypeBytes, choice, ?_⟩
    by_cases five : 5 ≤ p.bootTypeBytes.length
    · refine ⟨five, ?_⟩
      by_contra none
      push Not at none
      refine rejected _ ((parsePXE_replyPXE_ok_iff sized _).mpr ⟨?_, rfl⟩)
      rw [show (p.answeredBy ip httpPort).bootTypeBytes = p.bootTypeBytes from rfl,
        behindMenu_of_le five]
      exact none
    · obtain ⟨q, taken, _⟩ := parsePXE_replyPXE_short ip httpPort sized
        (show p.bootTypeBytes.length ≤ 5 by omega) rfl
      exact absurd taken (rejected q)
  · rintro ⟨bootType, found, five, o, member, malformed⟩ q taken
    cases choice.symm.trans found
    have formed := ((parsePXE_replyPXE_ok_iff sized q).mp taken).1
    rw [show (p.answeredBy ip httpPort).bootTypeBytes = p.bootTypeBytes from rfl,
      behindMenu_of_le five] at formed
    exact malformed (formed o member)

/-- No reply is cut off by the buffer of the next server. -/
theorem take_replyPXE {b : Bytes} {p : PXEPacket} (accepted : parsePXE b = .ok p) (ip : IPv4)
    (httpPort : Int64) :
    (replyPXE (p.answeredBy ip httpPort)).take 1024 = replyPXE (p.answeredBy ip httpPort) := by
  have sized := sized_of_parsePXE accepted ip httpPort
  have url := length_httpServerURL_le ip httpPort
  have bootType : p.bootTypeBytes.length ≤ 255 := by
    obtain ⟨o, _, found⟩ := lastSome_mem (fields_of_parsePXE accepted).2.2.2.2
    rw [menuChoice, Option.ite_none_right_eq_some] at found
    obtain ⟨sub, inside, value⟩ := List.exists_of_findSome?_eq_some found.2
    have small := length_le_of_mem_options inside
    rwa [valueOf_eq_some_iff.mp value] at small
  have magic : dhcpMagic.length = 4 := rfl
  have name : (ascii "PXEClient").length = 9 := by decide
  have same : (p.answeredBy ip httpPort).bootTypeBytes = p.bootTypeBytes := rfl
  have server : (p.answeredBy ip httpPort).httpServer = httpServerURL ip httpPort := rfl
  refine List.take_of_length_le ?_
  simp only [replyPXE_eq, replyOptions, replyTail, List.length_append, List.length_cons,
    List.length_nil, length_replyBootp, sized.serverIP, sized.guid, magic, name, same, server]
  omega

/-! ## Chains of replies -/

/-- Some round of some instance of the server, whatever its 1024-byte buffer held before,
answers the datagram `d` with the datagram `r`. -/
def Answers (s : Server) (d r : Bytes) : Prop :=
  ∃ (w : World) (buf : Bytes) (ifIndex : Int) (srcIP : IPv4) (srcPort : UInt16) (reply : Reply),
    buf.length = 1024 ∧ (s.round w buf (.datagram d ifIndex srcIP srcPort)).2 = some reply ∧
      reply.data = r

/-- The servers `ss` answered one after the other, each the reply of the one before it, and
the last reply is `r`. -/
inductive ReplyChain : List Server → Bytes → Prop where
  | start {s : Server} {d r : Bytes} : Answers s d r → ReplyChain [s] r
  | reflect {ss : List Server} {t : Server} {r r' : Bytes} :
      ReplyChain ss r → Answers t r r' → ReplyChain (ss ++ [t]) r'

/-- What a server of either kind sends. -/
def SentBy : Server → Bytes → Prop
  | .proxyDHCP, r => ∃ p : DHCPPacket, p.Sized ∧ r = offerDHCP p
  | .pxe _, r => ∃ p : PXEPacket, p.Sized ∧ r = replyPXE p

theorem sentBy_of_answers {s : Server} {d r : Bytes} (h : Answers s d r) : SentBy s r := by
  obtain ⟨w, buf, ifIndex, srcIP, srcPort, reply, -, sent, rfl⟩ := h
  cases s with
  | proxyDHCP =>
    rw [Server.round] at sent
    obtain ⟨req, ip, parsed, -, -, rfl⟩ := serveProxyDHCPRound_reply sent
    exact ⟨_, sized_of_parseDHCP parsed ip, rfl⟩
  | pxe httpPort =>
    rw [Server.round] at sent
    obtain ⟨req, ip, parsed, -, rfl⟩ := servePXERound_reply sent
    exact ⟨_, sized_of_parsePXE parsed ip httpPort, rfl⟩

/-- A reply is answered at most by a PXE server, and only if a PXE server sent it. -/
theorem pxe_of_answers_reply {s t : Server} {r r' : Bytes} (sent : SentBy s r)
    (h : Answers t r r') : s ≠ .proxyDHCP ∧ t ≠ .proxyDHCP := by
  obtain ⟨w, buf, ifIndex, srcIP, srcPort, reply, size, answered, rfl⟩ := h
  cases s with
  | proxyDHCP =>
    exfalso
    obtain ⟨p, sized, rfl⟩ := sent
    have whole : (offerDHCP p).take buf.length = offerDHCP p := by
      apply List.take_of_length_le
      rw [length_offerDHCP sized, size]
      omega
    cases t with
    | proxyDHCP =>
      rw [Server.round] at answered
      obtain ⟨req, -, parsed, -⟩ := serveProxyDHCPRound_reply answered
      rw [whole] at parsed
      exact parseDHCP_offerDHCP sized req parsed
    | pxe httpPort =>
      rw [Server.round] at answered
      obtain ⟨req, -, parsed, -⟩ := servePXERound_reply answered
      rw [whole] at parsed
      exact parsePXE_offerDHCP sized req parsed
  | pxe httpPort =>
    refine ⟨by simp, ?_⟩
    rintro rfl
    obtain ⟨p, sized, same⟩ := sent
    rw [Server.round, same] at answered
    obtain ⟨req, -, parsed, -⟩ := serveProxyDHCPRound_reply answered
    exact parseDHCP_take_replyPXE sized _ req parsed

/-- The invariant of a chain: its last reply is one that its last server sends, and once a
reply was answered there are only PXE servers in it. -/
theorem replyChain_inv {ss : List Server} {r : Bytes} (h : ReplyChain ss r) :
    (∃ s, ss.getLast? = some s ∧ SentBy s r) ∧
      (2 ≤ ss.length → ∀ s ∈ ss, s ≠ .proxyDHCP) := by
  induction h with
  | @start s d r answered =>
    exact ⟨⟨s, rfl, sentBy_of_answers answered⟩, fun two => by simp at two⟩
  | @reflect ss t r r' chain answered ih =>
    obtain ⟨⟨s, last, sent⟩, earlier⟩ := ih
    obtain ⟨hs, ht⟩ := pxe_of_answers_reply sent answered
    refine ⟨⟨t, by simp, sentBy_of_answers answered⟩, fun _ => ?_⟩
    intro x member
    rcases List.mem_append.mp member with before | rfl'
    · by_cases two : 2 ≤ ss.length
      · exact earlier two x before
      · obtain ⟨y, rfl⟩ : ∃ y, ss = [y] := by
          apply List.length_eq_one_iff.mp
          have := List.length_pos_of_mem before
          omega
        simp only [List.getLast?_singleton, Option.some.injEq] at last
        rw [List.mem_singleton.mp before, last]
        exact hs
    · rw [List.mem_singleton.mp rfl']
      exact ht

end Pixiecore.Pxe
