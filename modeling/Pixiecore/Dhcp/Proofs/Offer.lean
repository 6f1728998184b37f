import Pixiecore.Dhcp.Proofs.Parse

/-!
# What an offer says

An offer is taken apart again with the server's own `DhcpOption`: the hand-written
length bytes of `OfferDHCP` agree with what follows them for every address and GUID,
because the parser only stores GUIDs of sixteen bytes. The header, on the other hand,
always claims a six-byte Ethernet address, which is not always what was asked for.
-/

namespace Pixiecore.Dhcp

/-! ## Fixed part, cookie and options -/

theorem byteAt_eq_getElem? (b : Bytes) (i : Nat) : byteAt b i = (b[i]?).getD 0 :=
  List.getD_eq_getElem?_getD ..

theorem byteAt_of_slice (b : Bytes) {i n : Nat} (h : i < n) :
    byteAt b i = byteAt (slice b 0 n) i := by
  rw [byteAt_eq_getElem?, byteAt_eq_getElem?, getElem?_slice, if_pos (by omega), Nat.zero_add]

theorem length_bootpReply : bootpReply.length = 236 := by decide +kernel

/-- Copies behind the first four bytes leave a BOOTP reply for a six-byte Ethernet address. -/
theorem slice_copyAll_bootpReply {ws : List (Nat × Bytes)}
    (fits : ∀ w ∈ ws, w.1 + w.2.length ≤ bootpReply.length) (behind : ∀ w ∈ ws, 4 ≤ w.1) :
    slice (copyAll bootpReply ws) 0 4 = [2, 1, 6, 0] := by
  rw [slice_copyAll_disjoint _ _ _ _ fits (fun w member => Or.inl (behind w member))]
  decide

section Packet

variable {bootp : Bytes} (size : bootp.length = 236) (opts : Bytes)

include size

theorem slice_packet {lo hi : Nat} (h : hi ≤ 236) :
    slice (bootp ++ (dhcpMagic ++ opts)) lo hi = slice bootp lo hi := by
  refine slice_append_left _ _ _ _ ?_
  rw [size]
  exact h

theorem slice_packet_magic : slice (bootp ++ (dhcpMagic ++ opts)) 236 240 = dhcpMagic := by
  rw [slice_append_right _ _ _ _ (by rw [size]), size, slice_append_left _ _ _ _ (by decide)]
  rfl

theorem drop_packet : (bootp ++ (dhcpMagic ++ opts)).drop 240 = opts := by
  rw [← List.append_assoc, List.drop_left']
  rw [List.length_append, size]
  rfl

end Packet

/-! ## Fields of the fixed part -/

/-- What `OfferDHCP` copies into the fixed part. -/
def offerCopies (p : DHCPPacket) : List (Nat × Bytes) := [(4, p.tid), (28, p.mac)]

theorem offerBootp_eq (p : DHCPPacket) : offerBootp p = copyAll bootpReply (offerCopies p) := rfl

theorem length_offerBootp (p : DHCPPacket) : (offerBootp p).length = 236 := by
  rw [offerBootp_eq, length_copyAll, length_bootpReply]

/-- The options of an offer, from the one after the magic cookie to END. -/
def offerOptions (p : DHCPPacket) : Bytes :=
  53 :: 1 :: ([2] ++ 54 :: 4 :: (p.serverIPBytes ++ 60 :: 9 :: (ascii "PXEClient" ++
    97 :: 17 :: ((0 :: p.guidBytes) ++ 43 :: UInt8.ofNat (offerVendorOptions p).length ::
      (offerVendorOptions p ++ [255])))))

theorem offerDHCP_eq (p : DHCPPacket) :
    offerDHCP p = offerBootp p ++ (dhcpMagic ++ offerOptions p) := by
  simp [offerDHCP, offerOptions]

theorem slice_offerDHCP (p : DHCPPacket) {lo hi : Nat} (h : hi ≤ 236) :
    slice (offerDHCP p) lo hi = slice (offerBootp p) lo hi := by
  rw [offerDHCP_eq]
  exact slice_packet (length_offerBootp p) _ h

theorem slice_offerDHCP_magic (p : DHCPPacket) : slice (offerDHCP p) 236 240 = dhcpMagic := by
  rw [offerDHCP_eq]
  exact slice_packet_magic (length_offerBootp p) _

theorem drop_offerDHCP (p : DHCPPacket) : (offerDHCP p).drop 240 = offerOptions p := by
  rw [offerDHCP_eq]
  exact drop_packet (length_offerBootp p) _

section Sized

variable {p : DHCPPacket} (sized : p.Sized)

include sized

theorem offerCopies_fit : ∀ w ∈ offerCopies p, w.1 + w.2.length ≤ bootpReply.length := by
  simp [offerCopies, length_bootpReply, sized.tid, sized.mac]

theorem offerCopies_apart : (offerCopies p).Pairwise Apart := by
  simp [offerCopies, Apart, sized.tid]

/-- A BOOTP reply for a six-byte Ethernet address, always. -/
theorem slice_offerDHCP_header : slice (offerDHCP p) 0 4 = [2, 1, 6, 0] := by
  rw [slice_offerDHCP p (by omega), offerBootp_eq]
  exact slice_copyAll_bootpReply (offerCopies_fit sized) (by simp [offerCopies])

theorem byteAt_offerDHCP {i : Nat} (h : i < 4) :
    byteAt (offerDHCP p) i = byteAt [2, 1, 6, 0] i := by
  rw [byteAt_of_slice _ h, slice_offerDHCP_header sized]

theorem slice_offerDHCP_tid : slice (offerDHCP p) 4 8 = p.tid := by
  rw [slice_offerDHCP p (by omega), offerBootp_eq]
  exact slice_copyAll_mem _ _ (by simp [offerCopies]) (by rw [sized.tid])
    (offerCopies_fit sized) (offerCopies_apart sized)

theorem slice_offerDHCP_mac : slice (offerDHCP p) 28 34 = p.mac := by
  rw [slice_offerDHCP p (by omega), offerBootp_eq]
  exact slice_copyAll_mem _ _ (by simp [offerCopies]) (by rw [sized.mac])
    (offerCopies_fit sized) (offerCopies_apart sized)

/-! ## The options -/

/-- What option 43 of an offer holds, for any four bytes of address. -/
theorem options_offerVendorOptions :
    options (offerVendorOptions p) =
      ([(6, [3]), (8, [0x80, 0, 1] ++ p.serverIPBytes), (9, [0x80, 0, 9] ++ ascii "Pixiecore"),
        (10, [0] ++ ascii "Pixiecore")], [255]) := by
  have shape : offerVendorOptions p =
      6 :: 1 :: ([3] ++ 8 :: 7 :: (([0x80, 0, 1] ++ p.serverIPBytes) ++
        9 :: 12 :: (([0x80, 0, 9] ++ ascii "Pixiecore") ++
          10 :: 10 :: (([0] ++ ascii "Pixiecore") ++ [255])))) := by
    simp [offerVendorOptions]
  rw [shape, options_cons _ _ _ _ (by decide) (by decide),
    options_cons _ _ _ _ (by decide) (by simp [sized.serverIP]),
    options_cons _ _ _ _ (by decide) (by decide),
    options_cons _ _ _ _ (by decide) (by decide), options_end]

theorem length_offerVendorOptions : (offerVendorOptions p).length = 39 := by
  have name : (ascii "Pixiecore").length = 9 := by decide
  simp [offerVendorOptions, sized.serverIP, name]

/-- The options of an offer, for any four bytes of address and sixteen of GUID. -/
theorem options_offerDHCP :
    options ((offerDHCP p).drop 240) =
      ([(53, [2]), (54, p.serverIPBytes), (60, ascii "PXEClient"), (97, 0 :: p.guidBytes),
        (43, offerVendorOptions p)], [255]) := by
  rw [drop_offerDHCP]
  unfold offerOptions
  rw [options_cons _ _ _ _ (by decide) (by decide),
    options_cons _ _ _ _ (by decide) (by rw [sized.serverIP]; rfl),
    options_cons _ _ _ _ (by decide) (by decide),
    options_cons _ _ _ _ (by decide) (by rw [List.length_cons, sized.guid]; rfl),
    options_cons _ _ _ _ (by decide) (by rw [length_offerVendorOptions sized]; rfl), options_end]

end Sized

/-- Every offer is a BOOTP reply with the magic cookie, whose options and whose vendor
options decode to exactly what the server meant to send, up to the final END. -/
theorem offerDHCP_wellFormed (b : Bytes) (ip : IPv4) (p : DHCPPacket)
    (accepted : parseDHCP b = .ok p) :
    let r := offerDHCP { p with serverIP := some ip }
    (r.take 236).length = 236 ∧ byteAt r 0 = 2 ∧ slice r 236 240 = dhcpMagic ∧
      ∃ guid v, requestGUID (options (b.drop 240)).1 = some guid ∧ guid.length = 16 ∧
        options (r.drop 240) =
          ([(53, [2]), (54, ip.bytes), (60, ascii "PXEClient"), (97, 0 :: guid), (43, v)], [255]) ∧
        options v =
          ([(6, [3]), (8, [0x80, 0, 1] ++ ip.bytes), (9, [0x80, 0, 9] ++ ascii "Pixiecore"),
            (10, [0] ++ ascii "Pixiecore")], [255]) := by
  have sized := sized_of_parseDHCP accepted ip
  intro r
  refine ⟨?_, ?_, slice_offerDHCP_magic _, p.guidBytes, offerVendorOptions _,
    requestGUID_of_parseDHCP accepted, sized.guid, options_offerDHCP sized,
    options_offerVendorOptions sized⟩
  · simp [r, offerDHCP_eq, length_offerBootp]
  · exact byteAt_offerDHCP sized (by omega : 0 < 4)

/-! ## Requests for other hardware -/

/-- The offer `r` names the client that sent the request `b`. -/
structure IdentifiesClient (b r : Bytes) : Prop where
  tid : slice r 4 8 = slice b 4 8
  htype : byteAt r 1 = byteAt b 1
  hlen : byteAt r 2 = byteAt b 2
  chaddr : slice r 28 (28 + (byteAt b 2).toNat) = slice b 28 (28 + (byteAt b 2).toNat)
  guid : ∃ guid, requestGUID (options (b.drop 240)).1 = some guid ∧
    lastOption 97 (options (r.drop 240)).1 = some (0 :: guid)

/-- An offer names the client that asked exactly when that client really has a six-byte
Ethernet address, which the parser's check does not make sure of. -/
theorem offerDHCP_identifiesClient_iff (b : Bytes) (ip : IPv4) (p : DHCPPacket)
    (accepted : parseDHCP b = .ok p) :
    IdentifiesClient b (offerDHCP { p with serverIP := some ip }) ↔
      byteAt b 1 = 1 ∧ byteAt b 2 = 6 := by
  have sized := sized_of_parseDHCP accepted ip
  obtain ⟨-, -, -, -, -, -, same⟩ := (parseDHCP_ok_iff b p).mp accepted
  have htype : byteAt (offerDHCP { p with serverIP := some ip }) 1 = 1 :=
    byteAt_offerDHCP sized (by omega : 1 < 4)
  have hlen : byteAt (offerDHCP { p with serverIP := some ip }) 2 = 6 :=
    byteAt_offerDHCP sized (by omega : 2 < 4)
  constructor
  · intro ident
    exact ⟨ident.htype.symm.trans htype, ident.hlen.symm.trans hlen⟩
  · rintro ⟨ethernet, six⟩
    refine ⟨?_, htype.trans ethernet.symm, hlen.trans six.symm, ?_, p.guidBytes,
      requestGUID_of_parseDHCP accepted, ?_⟩
    · rw [slice_offerDHCP_tid sized, same]
    · have mac : slice (offerDHCP { p with serverIP := some ip }) 28 34 = slice b 28 34 := by
        rw [slice_offerDHCP_mac sized, same]
      rw [six]
      exact mac
    · rw [options_offerDHCP sized]
      rfl

/-- A DHCPDISCOVER with the given hardware type and address length. -/
def discover (htype hlen : UInt8) : Bytes :=
  [1, htype, hlen, 0, 1, 2, 3, 4] ++ List.replicate 20 0 ++ [2, 0, 0, 0, 0, 9] ++
    List.replicate 202 0 ++ dhcpMagic ++ [53, 1, 1, 97, 17, 0] ++ List.replicate 16 7 ++ [255]

/-- What `ParseDHCP` makes of `discover`, as long as one of the two bytes is the expected one. -/
def discovered : DHCPPacket :=
  { tid := [1, 2, 3, 4], mac := [2, 0, 0, 0, 0, 9], guid := some (List.replicate 16 7) }

theorem parseDHCP_discover : parseDHCP (discover 1 6) = .ok discovered := by decide +kernel

/-- The offer to an ordinary Ethernet client. -/
theorem offerDHCP_wellFormed_discover :
    parseDHCP (discover 1 6) = .ok discovered ∧
      slice (offerDHCP { discovered with serverIP := some ⟨192, 168, 0, 1⟩ }) 236 240 =
        dhcpMagic := by
  have wellFormed := offerDHCP_wellFormed _ ⟨192, 168, 0, 1⟩ _ parseDHCP_discover
  exact ⟨parseDHCP_discover, wellFormed.2.2.1⟩

/-- The same client is named by its offer. -/
theorem offerDHCP_identifiesClient_discover :
    parseDHCP (discover 1 6) = .ok discovered ∧
      IdentifiesClient (discover 1 6)
        (offerDHCP { discovered with serverIP := some ⟨192, 168, 0, 1⟩ }) := by
  have named := offerDHCP_identifiesClient_iff _ ⟨192, 168, 0, 1⟩ _ parseDHCP_discover
  exact ⟨parseDHCP_discover, named.mpr ⟨rfl, rfl⟩⟩

/-- A client with a sixteen-byte hardware address is accepted, and offered something that
is not for it: hardware type 1 alone passes the check. -/
theorem offerDHCP_misidentifies_discover :
    parseDHCP (discover 1 16) = .ok discovered ∧
      ¬ IdentifiesClient (discover 1 16)
        (offerDHCP { discovered with serverIP := some ⟨192, 168, 0, 1⟩ }) := by
  refine ⟨by decide +kernel, fun ident => ?_⟩
  exact absurd ident.hlen (by decide +kernel)

end Pixiecore.Dhcp
