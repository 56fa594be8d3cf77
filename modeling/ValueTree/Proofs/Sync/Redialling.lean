import Mathlib.Algebra.Group.Nat.Defs
import Mathlib.Order.Nat
import ValueTree.Sync.Wire

/-!
# Redialling

What becomes of the attempts to connect again, move by move. A timer fires and its attempt begins,
or its delay is over and the attempt waits for its turn. An attempt that has begun asks the link and
then arms the next timer. Before, between and after these moves connections come up and go down, and
the reconnector is stopped: by those who hear of the attempt, or by anybody else.

As long as attempts do not wait for their turn, a timer waits exactly if the reconnector knows of
one. The delays since a connection came up go round with a fixed period.
-/

namespace ValueTree

variable {τ : Type}

theorem Agenda.expire_cases (a : Agenda τ) (number : Nat) : a.expire number = a ∨
    ∃ timer ∈ a.timers, timer.number = number ∧ a.expire number = { a with
      tasks := a.tasks ++ [timer.task]
      timers := a.timers.filter (·.number ≠ number) } := by
  cases hfind : a.timers.find? (·.number = number) with
  | none => exact Or.inl (by simp only [expire, hfind])
  | some timer =>
    refine Or.inr ⟨timer, List.mem_of_find?_eq_some hfind, ?_, by simp only [expire, hfind]⟩
    simpa using List.find?_some hfind

namespace Wire

/-! ## One attempt -/

/-- The attempt begins, and its timer waits no more. -/
def beginRetry (w : Wire τ) : Wire τ := { w with reconnector := w.reconnector.fired }

def dial (w : Wire τ) : Wire τ := { w with link := w.link.connect.2 }

theorem attempts_dial (w : Wire τ) : w.dial.link.attempts = w.link.attempts + 1 := by
  simp only [dial, Link.connect]
  split <;> rfl

/-- What those do to the wire who hear of an attempt or of the link. -/
abbrev Hearing (τ : Type) := Attempt ⊕ LinkEvent → Wire τ → Wire τ

abbrev Heard (τ : Type) := ReaderT (Hearing τ) (StateM (Wire τ))

instance : Station τ (Heard τ) where
  wire := get
  adjust f := modify f
  announce attempt := fun hear w => ((), hear (.inl attempt) w)
  notify event := fun hear w => ((), hear (.inr event) w)

variable (w : Wire τ)

theorem connect_heard (hear : Hearing τ) :
    (Station.connect : Heard τ (Except SyncError Unit)) hear w =
      if w.link.reachable then (.ok (), hear (.inr .connected) w.dial)
      else (.error (.link "authority unreachable" true), w.dial) := by
  obtain ⟨agenda, ⟨connected, reachable, attempts, sent⟩, outbox, reconnector, framing⟩ := w
  cases reachable <;> rfl

theorem retry_heard (hear : Hearing τ) :
    ((Station.retry : Heard τ Unit) hear w).2 =
      let announced := hear (.inl .started) w.beginRetry
      (if announced.link.reachable then hear (.inr .connected) announced.dial
        else hear (.inl .failed) announced.dial).arm := by
  let rest (result : Except SyncError Unit) : Heard τ Unit := do
    if !result.toBool then Station.announce .failed
    Station.adjust arm
  have hrun : (Station.retry : Heard τ Unit) hear w =
      (Station.connect >>= rest) hear (hear (.inl .started) w.beginRetry) := rfl
  have hbind (v : Wire τ) : ((Station.connect >>= rest) hear v).2 =
      (rest ((Station.connect : Heard τ (Except SyncError Unit)) hear v).1 hear
        ((Station.connect : Heard τ (Except SyncError Unit)) hear v).2).2 := rfl
  rw [hrun, hbind, connect_heard]
  dsimp only
  split <;> rfl

/-! ## Timers -/

@[simp] theorem link_cancelRetry : w.cancelRetry.link = w.link := by
  unfold cancelRetry
  split <;> rfl

@[simp] theorem tasks_cancelRetry : w.cancelRetry.agenda.tasks = w.agenda.tasks := by
  unfold cancelRetry
  split <;> rfl

@[simp] theorem armed_cancelRetry : w.cancelRetry.agenda.armed = w.agenda.armed := by
  unfold cancelRetry
  split <;> rfl

@[simp] theorem nextTimer_cancelRetry : w.cancelRetry.agenda.nextTimer = w.agenda.nextTimer := by
  unfold cancelRetry
  split <;> rfl

theorem timers_cancelRetry : w.cancelRetry.agenda.timers =
    w.agenda.timers.filter fun timer => w.reconnector.timer ≠ some timer.number := by
  unfold cancelRetry
  split
  · rename_i number hnumber
    simp [Agenda.cancel, hnumber, eq_comm]
  · rename_i hnone
    exact (List.filter_eq_self.mpr fun _ _ => by simp [hnone]).symm

/-- Either nothing is armed, or a timer that waits now is the only one that the reconnector knows
of. -/
theorem arm_cases : w.arm = w ∨ ∃ delay, w.reconnector.timer = none ∧
    w.reconnector.backoff.isExhausted w.reconnector.attempts = false ∧
      delay = w.reconnector.backoff.delayAfter w.reconnector.timeout ∧
        w.arm = { w with
          agenda := (w.agenda.arm delay .retry).2
          reconnector := w.reconnector.waiting w.agenda.nextTimer delay } := by
  cases hdelay : w.reconnector.delay? with
  | none => exact Or.inl (by simp only [arm, hdelay])
  | some delay =>
    refine Or.inr ⟨delay, ?_⟩
    unfold Reconnector.delay? at hdelay
    split at hdelay
    · cases hdelay
    · rename_i hfree
      cases hdelay
      rw [Bool.not_eq_true, Bool.or_eq_false_iff] at hfree
      have hsome : w.reconnector.delay? =
          some (w.reconnector.backoff.delayAfter w.reconnector.timeout) := by
        simp [Reconnector.delay?, hfree]
      exact ⟨by simpa using hfree.1, hfree.2, rfl, by simp only [arm, hsome]; rfl⟩

theorem link_arm : w.arm.link = w.link := by
  obtain hsame | ⟨_, -, -, -, harm⟩ := w.arm_cases
  · rw [hsame]
  · rw [harm]

end Wire

/-! ## Runs -/

def Job.isRetry : Job τ → Bool
  | .retry => true
  | _ => false

structure Redial (τ : Type) where
  wire : Wire τ := {}
  /-- How many timers had been armed when a connection last came up. -/
  since : Nat := 0
  /-- How many attempts have begun and not yet asked the link. -/
  begun : Nat := 0

namespace Redial

inductive Move (τ : Type)
  | up
  /-- The connection went down, or an attempt is over: the next timer is armed. -/
  | down
  | stop
  /-- The first timer fires: what it waited for is done at once. -/
  | fire
  /-- The delay of a timer is over: what it waited for is a task like others. -/
  | expire (number : Nat)
  | turn
  /-- An attempt that has begun asks the link. -/
  | dial
  | reach (reachable : Bool)
  | post (task : τ)

/-- Where timers only fire, no attempt waits for its turn. -/
def Move.atOnce : Move τ → Bool
  | .expire _ => false
  | _ => true

/-- A job is taken off the agenda. What others do with theirs is no part of it. -/
def take (r : Redial τ) (agenda : Agenda (Job τ)) : Job τ → Redial τ
  | .retry => { r with wire := { r.wire with agenda }.beginRetry, begun := r.begun + 1 }
  | _ => { r with wire := { r.wire with agenda } }

def ask (r : Redial τ) : Redial τ :=
  match r.begun with
  | 0 => r
  | begun + 1 => { r with wire := r.wire.dial, begun }

def step (r : Redial τ) : Move τ → Redial τ
  | .up => { r with wire := r.wire.connectionUp, since := r.wire.agenda.armed.length }
  | .down => { r with wire := r.wire.arm }
  | .stop => { r with wire := r.wire.stop }
  | .fire =>
    match r.wire.agenda.fire? with
    | none => r
    | some (timer, agenda) => r.take agenda timer.task
  | .expire number => { r with wire := { r.wire with agenda := r.wire.agenda.expire number } }
  | .turn =>
    match r.wire.agenda.next? with
    | none => r
    | some (job, agenda) => r.take agenda job
  | .dial => r.ask
  | .reach reachable => { r with wire := { r.wire with link := { r.wire.link with reachable } } }
  | .post task => { r with wire := r.wire.post task }

def after (r : Redial τ) (moves : List (Move τ)) : Redial τ := moves.foldl step r

def fresh (b : Backoff) : Redial τ := { wire := { reconnector := { backoff := b } } }

/-- The delays that were armed since a connection last came up. -/
def delays (r : Redial τ) : List Nat := r.wire.agenda.armed.drop r.since

variable {r : Redial τ} {b : Backoff} {p : Nat}

theorem after_append (r : Redial τ) (moves more : List (Move τ)) :
    r.after (moves ++ more) = (r.after moves).after more := List.foldl_append

/-- What every move of a run keeps holds at its end. -/
theorem keeps {P : Redial τ → Prop} {moves : List (Move τ)} (hr : P r)
    (hstep : ∀ move ∈ moves, ∀ r, P r → P (r.step move)) : P (r.after moves) := by
  induction moves generalizing r with
  | nil => exact hr
  | cons move rest ih =>
    refine ih (hstep move List.mem_cons_self r hr) fun later hlater => ?_
    exact hstep later (List.mem_cons_of_mem _ hlater)

/-! ## One move -/

theorem fire_cases (r : Redial τ) : r.wire.agenda.timers = [] ∧ r.step .fire = r ∨
    ∃ timer rest, r.wire.agenda.timers = timer :: rest ∧
      r.step .fire = r.take { r.wire.agenda with timers := rest } timer.task := by
  obtain ⟨⟨⟨_, timers, _, _⟩, _, _, _, _⟩, _, _⟩ := r
  cases timers with
  | nil => exact Or.inl ⟨rfl, rfl⟩
  | cons timer rest => exact Or.inr ⟨timer, rest, rfl, rfl⟩

theorem turn_cases (r : Redial τ) : r.wire.agenda.tasks = [] ∧ r.step .turn = r ∨
    ∃ job rest, r.wire.agenda.tasks = job :: rest ∧
      r.step .turn = r.take { r.wire.agenda with tasks := rest } job := by
  obtain ⟨⟨⟨tasks, _, _, _⟩, _, _, _, _⟩, _, _⟩ := r
  cases tasks with
  | nil => exact Or.inl ⟨rfl, rfl⟩
  | cons job rest => exact Or.inr ⟨job, rest, rfl, rfl⟩

theorem took (r : Redial τ) {move : Move τ} (hmove : move = .fire ∨ move = .turn) :
    r.step move = r ∨ ∃ agenda job, agenda.armed = r.wire.agenda.armed ∧
      r.step move = r.take agenda job := by
  rcases hmove with rfl | rfl
  · obtain ⟨-, hstep⟩ | ⟨_, _, -, hstep⟩ := r.fire_cases
    · exact Or.inl hstep
    · exact Or.inr ⟨_, _, by rfl, hstep⟩
  · obtain ⟨-, hstep⟩ | ⟨_, _, -, hstep⟩ := r.turn_cases
    · exact Or.inl hstep
    · exact Or.inr ⟨_, _, by rfl, hstep⟩

/-- Two steps of a run with the same delays behind them and ahead of them. -/
structure SamePace (r s : Redial τ) : Prop where
  since : s.since = r.since
  armed : s.wire.agenda.armed = r.wire.agenda.armed
  backoff : s.wire.reconnector.backoff = r.wire.reconnector.backoff
  timeout : s.wire.reconnector.timeout = r.wire.reconnector.timeout
  attempts : s.wire.reconnector.attempts = r.wire.reconnector.attempts

theorem SamePace.refl (r : Redial τ) : r.SamePace r := ⟨rfl, rfl, rfl, rfl, rfl⟩

theorem samePace_took {move : Move τ} (hmove : move = .fire ∨ move = .turn) :
    r.SamePace (r.step move) := by
  obtain hstep | ⟨agenda, job, harmed, hstep⟩ := r.took hmove
  · rw [hstep]
    exact .refl r
  · rw [hstep]
    cases job <;> exact ⟨rfl, harmed, rfl, rfl, rfl⟩

theorem samePace_expire (number : Nat) : r.SamePace (r.step (.expire number)) := by
  refine ⟨rfl, ?_, rfl, rfl, rfl⟩
  change (r.wire.agenda.expire number).armed = r.wire.agenda.armed
  obtain hsame | ⟨timer, -, -, hexpire⟩ := r.wire.agenda.expire_cases number
  · rw [hsame]
  · rw [hexpire]

theorem samePace_dial : r.SamePace (r.step .dial) := by
  obtain ⟨wire, since, begun⟩ := r
  cases begun <;> exact ⟨rfl, rfl, rfl, rfl, rfl⟩

end Redial

/-! ## The period of the delays -/

namespace Backoff

def Wraps (b : Backoff) (n : Nat) : Prop := 1 ≤ n ∧ b.wrap ≤ b.initial * 2 ^ n

variable {b : Backoff} {p : Nat}

theorem exists_period (h : 0 < b.initial) : ∃ p, IsLeast {n | b.Wraps n} p := by
  have hwraps : ∃ n, b.Wraps n := by
    refine ⟨b.wrap + 1, Nat.le_add_left .., ?_⟩
    calc b.wrap ≤ 2 ^ b.wrap := Nat.lt_two_pow_self.le
      _ ≤ 2 ^ (b.wrap + 1) := Nat.pow_le_pow_right (by decide) (Nat.le_succ _)
      _ ≤ b.initial * 2 ^ (b.wrap + 1) := Nat.le_mul_of_pos_left _ h
  classical
  exact ⟨Nat.find hwraps, Nat.isLeast_find hwraps⟩

def nth (b : Backoff) (p n : Nat) : Nat := b.initial * 2 ^ (n % p)

/-- The delay before that one; there is none before the first. -/
def previous (b : Backoff) (p : Nat) : Nat → Nat
  | 0 => 0
  | n + 1 => b.nth p n

theorem delayAfter_previous (h : 0 < b.initial) (hp : IsLeast {n | b.Wraps n} p) (n : Nat) :
    b.delayAfter (b.previous p n) = b.nth p n := by
  obtain ⟨⟨hpos, hwraps⟩, hleast⟩ := hp
  cases n with
  | zero => simp [previous, delayAfter, nth]
  | succ n =>
    have hne : b.nth p n ≠ 0 := Nat.mul_ne_zero h.ne' (by simp)
    have hdouble : 2 * b.nth p n = b.initial * 2 ^ (n % p + 1) := by
      rw [nth, Nat.pow_succ]
      ac_rfl
    have hbelow : n % p < p := Nat.mod_lt _ hpos
    rw [previous, delayAfter, if_neg hne, hdouble]
    by_cases hlast : n % p + 1 = p
    · have hover : (n + 1) % p = 0 := by rw [← Nat.mod_add_mod, hlast, Nat.mod_self]
      rw [hlast, if_pos hwraps, nth, hover, Nat.pow_zero, Nat.mul_one]
    · have hnext : (n + 1) % p = n % p + 1 := by
        rw [← Nat.mod_add_mod, Nat.mod_eq_of_lt (by omega)]
      have hshort : ¬b.wrap ≤ b.initial * 2 ^ (n % p + 1) := fun hle => by
        have := hleast ⟨Nat.le_add_left .., hle⟩
        omega
      rw [if_neg hshort, nth, hnext]

end Backoff

/-! ## The delays of a run -/

namespace Redial

variable {r : Redial τ} {b : Backoff} {p : Nat}

/-- The delays since a connection last came up go round with the period, and the reconnector knows
how far they got. -/
structure Paced (b : Backoff) (p : Nat) (r : Redial τ) : Prop where
  since : r.since ≤ r.wire.agenda.armed.length
  backoff : r.wire.reconnector.backoff = b ∨
    r.wire.reconnector.backoff = { b with max? := some 0 }
  delays : r.delays = (List.range r.wire.reconnector.attempts).map (b.nth p)
  timeout : r.wire.reconnector.timeout = b.previous p r.wire.reconnector.attempts
  budget {most : Nat} : b.max? = some most → r.wire.reconnector.attempts ≤ most

namespace Paced

theorem same {s : Redial τ} (h : r.Paced b p) (hs : r.SamePace s) : s.Paced b p where
  since := by rw [hs.since, hs.armed]; exact h.since
  backoff := by rw [hs.backoff]; exact h.backoff
  delays := by rw [Redial.delays, hs.since, hs.armed, hs.attempts]; exact h.delays
  timeout := by rw [hs.timeout, hs.attempts]; exact h.timeout
  budget := by rw [hs.attempts]; exact h.budget

theorem up (h : r.Paced b p) : (r.step .up).Paced b p where
  since := by simp [step, Wire.connectionUp]
  backoff := by simpa [step, Wire.connectionUp, Reconnector.connected] using h.backoff
  delays := by simp [Redial.delays, step, Wire.connectionUp, Reconnector.connected]
  timeout := by simp [step, Wire.connectionUp, Reconnector.connected, Backoff.previous]
  budget _ := by simp [step, Wire.connectionUp, Reconnector.connected]

theorem down (hinitial : 0 < b.initial) (hp : IsLeast {n | b.Wraps n} p) (h : r.Paced b p) :
    (r.step .down).Paced b p := by
  obtain hsame | ⟨delay, -, hleft, rfl, harm⟩ := r.wire.arm_cases
  · have hstep : r.step .down = r := by rw [step, hsame]
    rwa [hstep]
  -- Something is armed, so the attempts are not used up, and the reconnector was not stopped.
  have hbackoff : r.wire.reconnector.backoff = b := by
    refine h.backoff.resolve_right fun hstopped => ?_
    simp [hstopped, Backoff.isExhausted] at hleft
  have hdelay : b.delayAfter r.wire.reconnector.timeout = b.nth p r.wire.reconnector.attempts := by
    rw [h.timeout, Backoff.delayAfter_previous hinitial hp]
  rw [hbackoff] at hleft harm
  rw [hdelay] at harm
  constructor
  · have := h.since
    simp only [step, harm, Agenda.arm, List.length_append]
    omega
  · simp only [step, harm]
    exact Or.inl hbackoff
  · simp only [Redial.delays, step, harm, Agenda.arm, Reconnector.waiting, List.range_succ,
      List.map_append, List.drop_append_of_le_length h.since]
    exact congrArg (· ++ _) h.delays
  · simp only [step, harm, Reconnector.waiting]
    rfl
  · intro most hmost
    simp only [Backoff.isExhausted, hmost, decide_eq_false_iff_not, not_le] at hleft
    simpa [step, harm, Reconnector.waiting, Nat.succ_le_iff] using hleft

theorem stop (h : r.Paced b p) : (r.step .stop).Paced b p where
  since := by simpa [step, Wire.stop] using h.since
  backoff := by
    refine Or.inr ?_
    rcases h.backoff with hold | hold <;> simp [step, Wire.stop, Reconnector.stopped, hold]
  delays := by simpa [Redial.delays, step, Wire.stop, Reconnector.stopped] using h.delays
  timeout := by simpa [step, Wire.stop, Reconnector.stopped] using h.timeout
  budget hmost := by simpa [step, Wire.stop, Reconnector.stopped] using h.budget hmost

theorem step (hinitial : 0 < b.initial) (hp : IsLeast {n | b.Wraps n} p) (h : r.Paced b p)
    (move : Move τ) : (r.step move).Paced b p := by
  cases move with
  | up => exact h.up
  | down => exact h.down hinitial hp
  | stop => exact h.stop
  | fire => exact h.same (samePace_took (Or.inl rfl))
  | expire number => exact h.same (samePace_expire number)
  | turn => exact h.same (samePace_took (Or.inr rfl))
  | dial => exact h.same samePace_dial
  | reach reachable => exact h.same ⟨rfl, rfl, rfl, rfl, rfl⟩
  | post task => exact h.same ⟨rfl, rfl, rfl, rfl, rfl⟩

theorem fresh (b : Backoff) (p : Nat) : (Redial.fresh b : Redial τ).Paced b p :=
  ⟨Nat.le_refl _, Or.inl rfl, rfl, rfl, fun _ => Nat.zero_le _⟩

end Paced

/-! ## After a stop -/

/-- There are no attempts left and no timer to wait for, and nothing more was armed. -/
structure Spent (armed : List Nat) (r : Redial τ) : Prop where
  backoff : r.wire.reconnector.backoff.max? = some 0
  timer : r.wire.reconnector.timer = none
  armed : r.wire.agenda.armed = armed

namespace Spent

variable {armed : List Nat}

theorem arm (h : r.Spent armed) : r.wire.arm = r.wire := by
  have hnone : r.wire.reconnector.delay? = none := by
    simp [Reconnector.delay?, Backoff.isExhausted, h.backoff]
  simp only [Wire.arm, hnone]

theorem took (h : r.Spent armed) {move : Move τ} (hmove : move = .fire ∨ move = .turn) :
    (r.step move).Spent armed := by
  obtain hstep | ⟨agenda, job, hagenda, hstep⟩ := r.took hmove
  · rwa [hstep]
  rw [hstep]
  cases job with
  | retry => exact ⟨h.backoff, rfl, hagenda.trans h.armed⟩
  | drain | own => exact ⟨h.backoff, h.timer, hagenda.trans h.armed⟩

theorem step (h : r.Spent armed) (move : Move τ) : (r.step move).Spent armed := by
  cases move with
  | up => exact ⟨h.backoff, rfl, by simpa [Redial.step, Wire.connectionUp] using h.armed⟩
  | down => simpa only [Redial.step, h.arm] using h
  | stop => exact ⟨rfl, rfl, by simpa [Redial.step, Wire.stop] using h.armed⟩
  | fire => exact h.took (Or.inl rfl)
  | expire number =>
    have hsame := samePace_expire (r := r) number
    exact ⟨hsame.backoff ▸ h.backoff, h.timer, hsame.armed.trans h.armed⟩
  | turn => exact h.took (Or.inr rfl)
  | dial =>
    obtain ⟨wire, since, begun⟩ := r
    cases begun <;> exact ⟨h.backoff, h.timer, h.armed⟩
  | reach reachable => exact ⟨h.backoff, h.timer, h.armed⟩
  | post task => exact ⟨h.backoff, h.timer, h.armed⟩

end Spent

theorem spent_stop (r : Redial τ) : (r.step .stop).Spent r.wire.agenda.armed :=
  ⟨rfl, rfl, by simp [step, Wire.stop]⟩

/-! ## The timer that waits -/

/-- No attempt waits for its turn, and the timer that the reconnector knows of is the only one. -/
structure Prompt (r : Redial τ) : Prop where
  timers : r.wire.agenda.timers.map (·.number) = r.wire.reconnector.timer.toList
  retries : ∀ timer ∈ r.wire.agenda.timers, timer.task = .retry
  tasks : .retry ∉ r.wire.agenda.tasks

namespace Prompt

theorem known (h : r.Prompt) {timer : Timer (Job τ)} (htimer : timer ∈ r.wire.agenda.timers) :
    r.wire.reconnector.timer = some timer.number := by
  rw [← Option.mem_toList, ← h.timers]
  exact List.mem_map_of_mem htimer

theorem cancelRetry (h : r.Prompt) : r.wire.cancelRetry.agenda.timers = [] := by
  rw [Wire.timers_cancelRetry, List.filter_eq_nil_iff]
  intro timer htimer
  simp [h.known htimer]

theorem up (h : r.Prompt) : (r.step .up).Prompt where
  timers := by simp [Redial.step, Wire.connectionUp, Reconnector.connected, h.cancelRetry]
  retries := by simp [Redial.step, Wire.connectionUp, h.cancelRetry]
  tasks := by simpa [Redial.step, Wire.connectionUp] using h.tasks

theorem stop (h : r.Prompt) : (r.step .stop).Prompt where
  timers := by simp [Redial.step, Wire.stop, Reconnector.stopped, h.cancelRetry]
  retries := by simp [Redial.step, Wire.stop, h.cancelRetry]
  tasks := by simpa [Redial.step, Wire.stop] using h.tasks

theorem down (h : r.Prompt) : (r.step .down).Prompt := by
  obtain hsame | ⟨delay, hnone, -, -, harm⟩ := r.wire.arm_cases
  · have hstep : r.step .down = r := by rw [Redial.step, hsame]
    rwa [hstep]
  have htimers : r.wire.agenda.timers = [] := by simpa [hnone] using h.timers
  constructor
  · simp [Redial.step, harm, Agenda.arm, htimers, Reconnector.waiting]
  · simp [Redial.step, harm, Agenda.arm, htimers]
  · simpa [Redial.step, harm, Agenda.arm] using h.tasks

theorem fire (h : r.Prompt) : (r.step .fire).Prompt := by
  obtain ⟨-, hstep⟩ | ⟨timer, rest, htimers, hstep⟩ := r.fire_cases
  · rwa [hstep]
  have hretry : timer.task = .retry := h.retries timer (by simp [htimers])
  have hrest : rest = [] := by
    have hnumbers := h.timers
    rw [htimers] at hnumbers
    cases htimer : r.wire.reconnector.timer <;> simp_all
  rw [hstep, hretry, hrest]
  exact ⟨rfl, by simp [take, Wire.beginRetry], h.tasks⟩

theorem turn (h : r.Prompt) : (r.step .turn).Prompt := by
  obtain ⟨-, hstep⟩ | ⟨job, rest, htasks, hstep⟩ := r.turn_cases
  · rwa [hstep]
  have hcalm := h.tasks
  rw [htasks, List.mem_cons, not_or] at hcalm
  rw [hstep]
  cases job with
  | retry => exact absurd rfl hcalm.1
  | drain => exact ⟨h.timers, h.retries, hcalm.2⟩
  | own task => exact ⟨h.timers, h.retries, hcalm.2⟩

theorem step (h : r.Prompt) {move : Move τ} (hmove : move.atOnce) : (r.step move).Prompt := by
  cases move with
  | up => exact h.up
  | down => exact h.down
  | stop => exact h.stop
  | fire => exact h.fire
  | expire number => cases hmove
  | turn => exact h.turn
  | dial =>
    obtain ⟨wire, since, begun⟩ := r
    cases begun <;> exact ⟨h.timers, h.retries, h.tasks⟩
  | reach reachable => exact ⟨h.timers, h.retries, h.tasks⟩
  | post task =>
    exact ⟨h.timers, h.retries, by simpa [Redial.step, Wire.post, Agenda.post] using h.tasks⟩

theorem after (h : r.Prompt) {moves : List (Move τ)} (hmoves : ∀ move ∈ moves, move.atOnce) :
    (r.after moves).Prompt :=
  keeps h fun move hmove _ hr => hr.step (hmoves move hmove)

theorem stopped (h : r.Prompt) {moves : List (Move τ)} (hmoves : ∀ move ∈ moves, move.atOnce) :
    let later := (r.step .stop).after moves
    later.wire.reconnector.timer = none ∧ later.wire.agenda.timers = [] ∧
      later.wire.agenda.armed = r.wire.agenda.armed := by
  have hspent : ((r.step .stop).after moves).Spent r.wire.agenda.armed :=
    keeps (spent_stop r) fun _ _ _ hs => hs.step _
  have hprompt : ((r.step .stop).after moves).Prompt := h.stop.after hmoves
  refine ⟨hspent.timer, ?_, hspent.armed⟩
  simpa [hspent.timer] using hprompt.timers

end Prompt

theorem prompt_fresh (b : Backoff) : (fresh b : Redial τ).Prompt :=
  ⟨rfl, nofun, nofun⟩

/-! ## An attempt, move by move -/

/-- Moves of a kind lead from one wire to another, and no attempt is under way that was not. -/
def Leads (allowed : Move τ → Prop) (v w : Wire τ) : Prop :=
  ∀ since begun, ∃ moves later, (∀ move ∈ moves, allowed move) ∧
    (⟨v, since, begun⟩ : Redial τ).after moves = ⟨w, later, begun⟩

/-- Whatever those do who hear of it, an attempt is a series of moves, and so is what they do. -/
theorem leads_retry {allowed : Move τ → Prop} {hear : Wire.Hearing τ}
    (hhear : ∀ heard w, Leads allowed w (hear heard w)) {v w : Wire τ} (first : Move τ)
    (hfirst : ∀ since begun,
      (⟨v, since, begun⟩ : Redial τ).step first = ⟨w.beginRetry, since, begun + 1⟩)
    (hallowed : allowed first ∧ allowed .dial ∧ allowed .down) :
    Leads allowed v ((Station.retry : Wire.Heard τ Unit) hear w).2 := by
  obtain ⟨hfirstAllowed, hdial, hdown⟩ := hallowed
  intro since begun
  -- While it is announced the attempt has begun, so others that begin then cannot use up its turn.
  obtain ⟨before, now, hbefore, hasked⟩ := hhear (.inl .started) w.beginRetry since (begun + 1)
  rw [Wire.retry_heard]
  generalize hear (.inl .started) w.beginRetry = announced at hasked ⊢
  dsimp only
  -- It does not matter which of the two outcomes is heard of.
  obtain ⟨heard, hheard⟩ : ∃ heard, (if announced.link.reachable
      then hear (.inr .connected) announced.dial else hear (.inl .failed) announced.dial) =
        hear heard announced.dial := by
    split
    · exact ⟨_, rfl⟩
    · exact ⟨_, rfl⟩
  obtain ⟨more, later, hmore, htold⟩ := hhear heard announced.dial now begun
  refine ⟨first :: before ++ .dial :: more ++ [.down], later, ?_, ?_⟩
  · simp only [List.cons_append, List.mem_cons, List.mem_append, List.not_mem_nil, or_false]
    grind
  · have hrun : (⟨v, since, begun⟩ : Redial τ).after (first :: before) =
        ⟨announced, now, begun + 1⟩ := by
      rw [after, List.foldl_cons, hfirst]
      exact hasked
    rw [after_append, after_append, hrun, hheard]
    exact congrArg (step · .down) htold

/-- What is made of the reconnector while its timers fire and do not expire. -/
structure BackoffKept (b : Backoff) (r : Redial τ) : Prop where
  live : r.wire.agenda.timers.length = if r.wire.reconnector.timer.isSome then 1 else 0
  known {timer : Timer (Job τ)} : timer ∈ r.wire.agenda.timers →
    timer.task = .retry ∧ r.wire.reconnector.timer = some timer.number
  /-- The period is the least number of doublings that brings the first delay to the wrap. -/
  delays : ∃ p, IsLeast {n | 1 ≤ n ∧ b.wrap ≤ b.initial * 2 ^ n} p ∧
    r.delays = (List.range r.delays.length).map fun n => b.initial * 2 ^ (n % p)
  budget {most : Nat} : b.max? = some most → r.delays.length ≤ most
  stopped {moves : List (Move τ)} : (∀ move ∈ moves, move.atOnce) →
    let later := (r.step .stop).after moves
    later.wire.reconnector.timer = none ∧ later.wire.agenda.timers = [] ∧
      later.wire.agenda.armed = r.wire.agenda.armed
  /-- Nothing but such moves comes of a timer that fires. -/
  attempt {timer : Timer (Job τ)} {rest : List (Timer (Job τ))} {own : τ → Wire.Heard τ Unit}
    {hear : Wire.Hearing τ} : r.wire.agenda.timers = timer :: rest →
      (∀ heard w, Leads (·.atOnce) w (hear heard w)) →
        Leads (·.atOnce) r.wire (Station.work own timer.task hear
          { r.wire with agenda := { r.wire.agenda with timers := rest } }).2

theorem backoffKept {b : Backoff} (hinitial : 0 < b.initial) {moves : List (Move τ)}
    (hmoves : ∀ move ∈ moves, move.atOnce) : BackoffKept b ((fresh b).after moves) := by
  obtain ⟨p, hp⟩ := Backoff.exists_period hinitial
  have hpaced : ((fresh b).after moves).Paced b p :=
    keeps (.fresh b p) fun move _ _ hr => hr.step hinitial hp move
  have hprompt : ((fresh b).after moves).Prompt := (prompt_fresh b).after hmoves
  generalize (fresh b).after moves = r at hpaced hprompt
  have hlength : r.delays.length = r.wire.reconnector.attempts := by simp [hpaced.delays]
  constructor
  case live =>
    rw [← List.length_map, hprompt.timers]
    cases r.wire.reconnector.timer <;> rfl
  case known =>
    intro timer htimer
    exact ⟨hprompt.retries timer htimer, hprompt.known htimer⟩
  case delays =>
    refine ⟨p, hp, ?_⟩
    rw [hlength]
    exact hpaced.delays
  case budget =>
    intro most hmost
    exact hlength ▸ hpaced.budget hmost
  case stopped => exact hprompt.stopped
  case attempt =>
    intro timer rest own hear htimers hhear
    have hretry : timer.task = .retry := hprompt.retries timer (by simp [htimers])
    rw [hretry]
    refine leads_retry hhear .fire (fun since begun => ?_) ⟨rfl, rfl, rfl⟩
    simp only [step, Agenda.fire?, htimers, hretry, take]

/-- Three attempts fail, and a fourth may not be made. -/
theorem backoffKept_three : let b : Backoff := { max? := some 3, initial := 250, wrap := 1000 }
    let moves : List (Move Empty) :=
      [.reach false, .down, .fire, .dial, .down, .fire, .dial, .down, .fire, .dial, .down]
    0 < b.initial ∧ (∀ move ∈ moves, move.atOnce) ∧ BackoffKept b ((fresh b).after moves) ∧
      ((fresh b).after moves).delays = [250, 500, 250] := by
  intro b moves
  have hinitial : 0 < b.initial := by decide
  have hmoves : ∀ move ∈ moves, move.atOnce := by decide
  exact ⟨hinitial, hmoves, backoffKept hinitial hmoves, by decide⟩

end Redial

end ValueTree
