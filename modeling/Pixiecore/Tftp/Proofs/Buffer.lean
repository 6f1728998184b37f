import Pixiecore.Tftp.Buffer

/-!
# `parseRRQ` sees the datagram only

Over any contents of the buffer, `parseRRQ` stays within bounds and returns what it returns for
the received bytes alone, and so does a round of `Serve`. What `sendPacket` makes of a datagram
stays within bounds too, although not within the datagram.
-/

namespace Pixiecore.Tftp

variable {n : Nat}

theorem nullStrIn_returns (mem : Memory n) (b : View n) :
    Returns (nullStrIn mem b)
      (fun r => r.map (fun s => (s.1, s.2.bytes mem)) = nullStr (b.bytes mem)) := by
  rw [nullStrIn, nullStr]
  cases found : (b.bytes mem).findIdx? (fun c => c == 0) with
  | none => exact returns_some rfl
  | some off =>
    obtain ⟨below, _⟩ := List.findIdx?_eq_some_iff_getElem.mp found
    rw [View.length_bytes] at below
    apply (View.take_returns mem b (by omega)).bind
    intro str isStr
    apply (View.drop_returns mem b (by omega)).bind
    intro remaining isRemaining
    apply returns_some
    rw [Option.map_some, isStr, isRemaining]

section Loop

variable {mem : Memory n} {b b1 b2 : View n} {s opt valStr : Bytes}

theorem nullStr_none_of_nullStrIn (read : nullStrIn mem b = some none) :
    nullStr (b.bytes mem) = none := ((nullStrIn_returns mem b).holds read).symm

theorem nullStr_of_nullStrIn (read : nullStrIn mem b = some (some (s, b1))) :
    nullStr (b.bytes mem) = some (s, b1.bytes mem) :=
  ((nullStrIn_returns mem b).holds read).symm

/-- A round of the loop over the bytes, once a name and a value were read from the buffer. -/
theorem parseOptions_of_nullStrIn (addr : Bytes) (req : Rrq) (more : ¬ b.len = 0)
    (name : nullStrIn mem b = some (some (opt, b1)))
    (value : nullStrIn mem b1 = some (some (valStr, b2))) :
    parseOptions addr req (b.bytes mem) =
      match atoi valStr with
      | none => .error (.nonInteger addr valStr opt)
      | some val =>
        if opt = ascii "blksize" then
          if val < 8 ∨ val > 65464 then .error (.unsupportedBlocksize addr val)
          else parseOptions addr { req with blockSize := clampBlockSize val } (b2.bytes mem)
        else parseOptions addr req (b2.bytes mem) := by
  have nonempty : (b.bytes mem).length ≠ 0 := by rwa [View.length_bytes]
  cases read : atoi valStr with
  | none =>
    simp only [parseOptions_step addr req nonempty, nullStr_of_nullStrIn name,
      nullStr_of_nullStrIn value, read]
  | some val =>
    simp only [parseOptions_step addr req nonempty, nullStr_of_nullStrIn name,
      nullStr_of_nullStrIn value, read]

end Loop

theorem parseOptionsIn_returns (mem : Memory n) (addr : Bytes) (req : Rrq) (b : View n) :
    Returns (parseOptionsIn mem addr req b)
      (fun r => r = parseOptions addr req (b.bytes mem)) := by
  fun_induction parseOptionsIn mem addr req b with
  | case1 req b done =>
    rw [parseOptions, if_pos ((View.length_bytes mem b).trans done)]
    exact returns_some rfl
  | case2 req b more stopped => exact absurd stopped (nullStrIn_returns mem b).ne_none
  | case3 req b more noName =>
    rw [parseOptions_step addr req (by rwa [View.length_bytes]),
      nullStr_none_of_nullStrIn noName]
    exact returns_some rfl
  | case4 req b more opt b1 name stopped => exact absurd stopped (nullStrIn_returns mem b1).ne_none
  | case5 req b more opt b1 name noValue =>
    rw [parseOptions_step addr req (by rwa [View.length_bytes]), nullStr_of_nullStrIn name]
    simp only [nullStr_none_of_nullStrIn noValue]
    exact returns_some rfl
  | case6 req b more opt b1 name valStr b2 value shorter unread =>
    rw [parseOptions_of_nullStrIn addr req more name value, unread]
    exact returns_some rfl
  | case7 req b more b1 valStr b2 value val read outside name shorter =>
    simp only [parseOptions_of_nullStrIn addr req more name value, read, if_true, if_pos outside]
    exact returns_some rfl
  | case8 req b more b1 valStr b2 value val read inside name shorter ih =>
    simp only [parseOptions_of_nullStrIn addr req more name value, read, if_true, if_neg inside]
    exact ih
  | case9 req b more opt b1 name valStr b2 value shorter val read other ih =>
    simp only [parseOptions_of_nullStrIn addr req more name value, read, if_neg other]
    exact ih

/-- `parseRRQ` stays within bounds, and returns what it returns for the bytes it was given. -/
theorem parseRRQIn_returns (mem : Memory n) (addr : Bytes) (b : View n) :
    Returns (parseRRQIn mem addr b) (fun r => r = parseRRQ addr (b.bytes mem)) := by
  rw [parseRRQIn, parseRRQ, View.length_bytes]
  split
  · exact returns_some rfl
  next long =>
  apply View.uint16_sub_bind mem b (by omega : 0 + 2 ≤ b.len)
  rw [slice, List.drop_zero, uint16_take _ _ (Nat.le_refl 2)]
  split
  · exact returns_some rfl
  apply (View.drop_returns mem b (by omega)).bind
  intro b1 isRest
  rw [← isRest]
  apply (nullStrIn_returns mem b1).bind
  intro name read
  rw [← read]
  rcases name with _ | ⟨fname, b2⟩
  · exact returns_some rfl
  simp only [Option.map_some]
  apply (nullStrIn_returns mem b2).bind
  intro mode read
  rw [← read]
  rcases mode with _ | ⟨mode, b3⟩
  · exact returns_some rfl
  simp only [Option.map_some]
  split
  · exact returns_some rfl
  · exact parseOptionsIn_returns mem addr { filename := fname } b3

/-- A round over the buffer does what the round over the datagram does. -/
theorem serveRoundIn_returns (q : Quote) (received : Received) (mem : Memory n) :
    Returns (serveRoundIn q received mem)
      (fun r => (r.1.bytes, r.2) = serveRound q mem.bytes received) := by
  cases received with
  | error text => exact returns_some rfl
  | datagram addr data =>
    rw [serveRoundIn]
    apply (View.take_receive_returns mem data).bind
    intro b front
    apply (parseRRQIn_returns (mem.receive data) addr b).bind
    intro r parsed
    simp only [serveRound, readFrom_snd, mem.size]
    rw [← front, ← parsed]
    cases r with
    | error err => exact returns_some rfl
    | ok req => exact returns_some rfl

/-! ## `sendPacket` -/

/-- The body of the receive loop stays within the array, and does what it does to the bytes. -/
theorem sendPacketReadIn_returns (seq : UInt16) (w : Waiting) (d : Bytes) :
    Returns (sendPacketReadIn seq w d) (fun step => step = sendPacketRead seq w (.datagram d)) := by
  have array : (View.whole : View 256).bytes (w.receive d).memory = (w.receive d).recv :=
    View.bytes_whole _
  rw [sendPacketReadIn, sendPacketRead]
  split
  · exact returns_some rfl
  apply View.uint16_sub_bind (w.receive d).memory .whole (by decide : 0 + 2 ≤ 256)
  rw [array]
  split
  · -- an ACK
    apply View.uint16_sub_bind (w.receive d).memory .whole (by decide : 2 + 2 ≤ 256)
    rw [array]
    split
    · exact returns_some rfl
    · exact returns_some rfl
  split
  · -- an ERROR
    apply (View.drop_returns (w.receive d).memory .whole (by decide : 4 ≤ 256)).bind
    intro rest isRest
    rw [array] at isRest
    apply (nullStrIn_returns (w.receive d).memory rest).bind
    intro msg read
    rw [isRest] at read
    apply returns_some
    rw [← read, Option.map_map]
    rfl
  · exact returns_some rfl

end Pixiecore.Tftp
