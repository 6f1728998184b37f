import Pixiecore.Tftp.Deadline
import Pixiecore.Tftp.Proofs.Step

/-!
# No peer can hold a transfer up

Whatever the peer sends, and how often, the wait for one acknowledgement lasts at most the five
tries, since only a write moves the deadline. The last datagram of a try can be read when the
deadline has just passed, and the code then still goes back to a read that times out at once. A
transfer is therefore over after at most five seconds for each of its packets, and how late the
code itself is.
-/

namespace Pixiecore.Tftp

/-- How long one try can take. -/
def tryTime (lag : Nat) : Nat := second + 5 * lag

/-- Packet `i` is being sent, its tries have not taken more time than they may, and the current one
is not much past its deadline. -/
structure OnTime (req : Rrq) (file : Reader) (lag t₀ i : Nat) (c : Clock req.bsize)
    (ph : Phase req.bsize) (w : Waiting) : Prop where
  state : c.state = .sending ph w
  sending : SendingNo req file i ph
  low : firstNo req ≤ i
  past : c.now ≤ c.deadline + 3 * lag
  bound : c.deadline + 5 * lag ≤ t₀ + (5 * (i - firstNo req) + w.tries + 1) * tryTime lag

/-- The transfer is on time with some packet, or it has returned when it had to. -/
def InTime (req : Rrq) (file : Reader) (lag t₀ : Nat) (c : Clock req.bsize) : Prop :=
  c.now ≤ t₀ + 5 * (file.content.length / req.bsize + 2 - firstNo req) * tryTime lag ∧
    ((∃ res, c.state = .returned res) ∨ ∃ i ph w, OnTime req file lag t₀ i c ph w)

section Bound

variable {req : Rrq} {file : Reader} {lag t₀ : Nat}

theorem firstNo_le_one (req : Rrq) : firstNo req ≤ 1 := by
  unfold firstNo
  split <;> omega

/-- There are no more packets than blocks. -/
theorem SendingNo.le {i : Nat} {ph : Phase req.bsize} (h : SendingNo req file i ph) :
    i ≤ file.content.length / req.bsize + 1 := by
  have inside := (Nat.le_div_iff_mul_le (bsize_pos req)).mpr h.inside
  omega

/-- While the transfer is on time with a packet, the time it has is not used up. -/
theorem OnTime.le {i : Nat} {c : Clock req.bsize} {ph : Phase req.bsize} {w : Waiting}
    (h : OnTime req file lag t₀ i c ph w) :
    c.deadline + 5 * lag ≤
      t₀ + 5 * (file.content.length / req.bsize + 2 - firstNo req) * tryTime lag := by
  have high := h.sending.le
  have low := h.low
  have tries := w.tries_lt
  have first := firstNo_le_one req
  unfold numRetries at tries
  have rounds : 5 * (i - firstNo req) + w.tries + 1 ≤
      5 * (file.content.length / req.bsize + 2 - firstNo req) := by omega
  exact Nat.le_trans h.bound (Nat.add_le_add_left (Nat.mul_le_mul_right _ rounds) _)

/-- A try that has begun at `T`, with its deadline a second later. -/
theorem bound_again {n T : Nat} (spent : T ≤ t₀ + n * tryTime lag) :
    T + second + 5 * lag ≤ t₀ + (n + 1) * tryTime lag := by
  have again : (n + 1) * tryTime lag = n * tryTime lag + tryTime lag := Nat.succ_mul _ _
  have whole : tryTime lag = second + 5 * lag := rfl
  omega

/-- What follows packet `i` begins when the time of its tries is not over. -/
theorem inTime_next {i T : Nat} {r : State req.bsize × List Bytes} (next : Next req file i r)
    (low : firstNo req ≤ i + 1)
    (spent : T ≤ t₀ + 5 * (i + 1 - firstNo req) * tryTime lag)
    (within : T ≤ t₀ + 5 * (file.content.length / req.bsize + 2 - firstNo req) * tryTime lag)
    (d : Nat) : InTime req file lag t₀ ⟨r.1, T, if r.2 = [] then d else T + second⟩ := by
  refine ⟨within, ?_⟩
  cases next with
  | block blk sending left =>
    refine Or.inr ⟨i + 1, _, _, rfl, sending, low, ?_, ?_⟩
    · simp only [List.cons_ne_nil, if_false]
      omega
    · simp only [List.cons_ne_nil, if_false]
      exact bound_again spent
  | error => exact Or.inl ⟨_, rfl⟩
  | done => exact Or.inl ⟨_, rfl⟩

/-- When a read is over and the code is at the next one: the earlier, the less of the time after
the deadline was used up when it was begun. -/
theorem next_le {c : Clock req.bsize} {t : Tick} (punctual : Punctual req lag c t)
    (past : c.now ≤ c.deadline + 3 * lag) :
    t.next ≤ c.deadline + 5 * lag ∧
      (t.outcome ≠ .timeout → t.next ≤ c.deadline + 3 * lag) := by
  have prompt := punctual.prompt
  have swift := punctual.swift
  constructor
  · omega
  · intro other
    have early : ¬ c.deadline + lag < c.now := fun late => other (punctual.late late)
    omega

/-- One read: an acknowledgement begins the next packet, a timeout the next try, and nothing else
moves the deadline. -/
theorem inTime_tick {c : Clock req.bsize} {t : Tick} (h : InTime req file lag t₀ c)
    (punctual : Punctual req lag c t) : InTime req file lag t₀ (c.tick req t) := by
  obtain ⟨_, ⟨res, ended⟩ | ⟨i, ph, w, onTime⟩⟩ := h
  · have live := punctual.live
    rw [ended] at live
    cases live
  obtain ⟨arrives, sooner⟩ := next_le punctual onTime.past
  have within := Nat.le_trans arrives onTime.le
  have spent := Nat.le_trans arrives onTime.bound
  have low := onTime.low
  simp only [Clock.tick, onTime.state]
  rcases resume_cases req ph w t.outcome with
    ⟨d, _, ack, e⟩ | ⟨w', ignored, same, e⟩ | ⟨w', _, more, e⟩ | ⟨err, aborts, e⟩
  · rw [e]
    refine inTime_next (next_afterAck onTime.sending) (by omega) ?_ within c.deadline
    have tries := w.tries_lt
    unfold numRetries at tries
    have rounds : 5 * (i - firstNo req) + w.tries + 1 ≤ 5 * (i + 1 - firstNo req) := by omega
    exact Nat.le_trans spent (Nat.add_le_add_left (Nat.mul_le_mul_right _ rounds) _)
  · rw [e]
    have other : t.outcome ≠ .timeout := by
      intro timeout
      rw [timeout] at ignored
      cases ignored
    refine ⟨within, Or.inr ⟨i, ph, w', rfl, onTime.sending, low, sooner other, ?_⟩⟩
    rw [if_pos rfl, same]
    exact onTime.bound
  · rw [e]
    refine ⟨within, Or.inr ⟨i, ph, w', rfl, onTime.sending, low, ?_, ?_⟩⟩
    · simp only [List.cons_ne_nil, if_false]
      omega
    · simp only [more, List.cons_ne_nil, if_false]
      exact bound_again spent
  · rw [e]
    exact ⟨within, Or.inl ⟨_, rfl⟩⟩

theorem inTime_ticks {c : Clock req.bsize} (ts : List Tick) (h : InTime req file lag t₀ c)
    (punctual : AllPunctual req lag c ts) : InTime req file lag t₀ (c.ticks req ts) := by
  induction ts generalizing c with
  | nil => exact h
  | cons t ts ih => exact ih (inTime_tick h punctual.1) punctual.2

theorem inTime_start {addr : Bytes} {handler : Handler}
    (opened : handler req.filename addr = .ok file) :
    InTime req file lag t₀ (Clock.start req addr handler t₀) := by
  unfold Clock.start
  rcases transferStart_cases req opened with ⟨sending, first, start⟩ | ⟨first, next⟩
  · rw [start]
    refine ⟨Nat.le_add_right _ _, Or.inr ⟨0, _, _, rfl, sending, by omega, ?_, ?_⟩⟩
    · simp only
      omega
    · rw [first]
      simp only [Waiting.first, Waiting.inTry, tryTime]
      omega
  · rcases wrote : transferStart req (.ok ()) addr handler with ⟨s, ws⟩
    rw [wrote] at next
    have begins : InTime req file lag t₀ ⟨s, t₀, if ws = [] then t₀ + second else t₀ + second⟩ :=
      inTime_next next (by omega) (Nat.le_add_right _ _) (Nat.le_add_right _ _) (t₀ + second)
    rwa [ite_self] at begins

end Bound

/-- A read can always time out, at its deadline or at once. -/
theorem punctual_timeout (req : Rrq) (lag : Nat) {c : Clock req.bsize}
    (live : c.state.running = true) :
    Punctual req lag c ⟨.timeout, max c.now c.deadline, max c.now c.deadline⟩ where
  live := live
  begun := Nat.le_max_left _ _
  prompt := Nat.le_add_right _ _
  late _ := rfl
  expired _ := Nat.le_max_right _ _
  onward := Nat.le_refl _
  swift := Nat.le_add_right _ _

/-- Whatever a peer sends and whenever, a transfer that starts at time `t₀` is over when five
seconds have passed for each of its packets, counting what the code and its timers are late by:
until then it has returned, or it rests in a read that comes back before that time and can do so
in a way that is punctual. -/
theorem transfer_over_in_time (req : Rrq) (addr : Bytes) (handler : Handler) (file : Reader)
    (lag t₀ : Nat) (ts : List Tick) (opened : handler req.filename addr = .ok file)
    (punctual : AllPunctual req lag (Clock.start req addr handler t₀) ts) :
    let c := (Clock.start req addr handler t₀).ticks req ts
    let limit := t₀ + 5 * (file.content.length / req.bsize + 2 - firstNo req) * (second + 5 * lag)
    c.now ≤ limit ∧ ((∃ res, c.state = .returned res) ∨
      max c.now c.deadline + lag ≤ limit ∧ ∃ t, Punctual req lag c t) := by
  intro c limit
  obtain ⟨now, ended | ⟨i, ph, w, onTime⟩⟩ := inTime_ticks ts (inTime_start opened) punctual
  · exact ⟨now, Or.inl ended⟩
  · have before : c.deadline + 5 * lag ≤ limit := onTime.le
    have past : c.now ≤ c.deadline + 3 * lag := onTime.past
    have live : c.state.running = true := congrArg State.running onTime.state
    exact ⟨now, Or.inr ⟨by omega, _, punctual_timeout req lag live⟩⟩

/-- A peer that sends a stale acknowledgement just before the first deadline, to a server that is
late by ten, and then nothing. The code gets back to the read when the deadline is over. -/
def stalling : List Tick :=
  [⟨.datagram [0, 4, 0, 7], second + 10, second + 20⟩, ⟨.timeout, second + 30, second + 40⟩,
    ⟨.timeout, 2 * second + 50, 2 * second + 60⟩, ⟨.timeout, 3 * second + 70, 3 * second + 80⟩,
    ⟨.timeout, 4 * second + 90, 4 * second + 100⟩, ⟨.timeout, 5 * second + 110, 5 * second + 120⟩]

/-- The transfer ends after five seconds and what the server is late by, and not earlier. -/
theorem transfer_over_in_time_stalling :
    let c := (Clock.start ⟨ascii "f", 0⟩ [] (blob (ascii "abc")) 0).ticks ⟨ascii "f", 0⟩ stalling
    c.now = 5 * second + 120 ∧ c.now ≤ 0 + 5 * (3 / 512 + 2 - 1) * (second + 5 * 10) := by
  refine ⟨by decide +kernel, (transfer_over_in_time ⟨ascii "f", 0⟩ [] (blob (ascii "abc"))
    ⟨ascii "abc", .eof⟩ 10 0 stalling rfl ?_).1⟩
  refine ⟨⟨?_, ?_, ?_, ?_, ?_, ?_, ?_⟩, ⟨?_, ?_, ?_, ?_, ?_, ?_, ?_⟩,
    ⟨?_, ?_, ?_, ?_, ?_, ?_, ?_⟩, ⟨?_, ?_, ?_, ?_, ?_, ?_, ?_⟩, ⟨?_, ?_, ?_, ?_, ?_, ?_, ?_⟩,
    ⟨?_, ?_, ?_, ?_, ?_, ?_, ?_⟩, trivial⟩
  all_goals decide +kernel

end Pixiecore.Tftp
