import Mathlib.Data.List.Nodup
import ValueTree.Proofs.Sync.Redialling

/-!
# Stopping

A stop takes back the timer that the reconnector knows of, and no other is armed from then on.
Attempts that have begun, that wait for their turn, or whose timer the reconnector lost sight of are
still owed: each of them asks the link once, and nothing else does.

It is the same with any timer. One that was cancelled before its delay was over brings nothing; once
the delay is over, the task is out of reach.
-/

namespace ValueTree

variable {τ : Type}

namespace Redial

variable {r : Redial τ} {armed : List Nat}

/-! ## The attempts that are owed -/

/-- The attempts that have begun, that wait for their turn, and that a timer waits for. -/
def owed (r : Redial τ) : Nat :=
  r.begun + r.wire.agenda.tasks.countP Job.isRetry + r.wire.agenda.timers.length

/-- The moves that a strand makes by itself. -/
def Move.proceeds : Move τ → Bool
  | .expire _ | .turn | .dial => true
  | _ => false

/-- Every timer brings an attempt and has a number of its own. -/
structure Numbered (r : Redial τ) : Prop where
  retries : ∀ timer ∈ r.wire.agenda.timers, timer.task = .retry
  apart : (r.wire.agenda.timers.map (·.number)).Nodup
  below : ∀ timer ∈ r.wire.agenda.timers, timer.number < r.wire.agenda.nextTimer

namespace Numbered

theorem fewer {s : Redial τ} (h : r.Numbered)
    (htimers : s.wire.agenda.timers.Sublist r.wire.agenda.timers)
    (hnext : s.wire.agenda.nextTimer = r.wire.agenda.nextTimer) : s.Numbered where
  retries timer htimer := h.retries timer (htimers.subset htimer)
  apart := h.apart.sublist (htimers.map _)
  below timer htimer := hnext ▸ h.below timer (htimers.subset htimer)

theorem down (h : r.Numbered) : (r.step .down).Numbered := by
  obtain hsame | ⟨delay, -, -, -, harm⟩ := r.wire.arm_cases
  · have hstep : r.step .down = r := by rw [step, hsame]
    rwa [hstep]
  have hfresh : r.wire.agenda.nextTimer ∉ r.wire.agenda.timers.map (·.number) := by
    intro hmem
    obtain ⟨timer, htimer, heq⟩ := List.mem_map.mp hmem
    exact (h.below timer htimer).ne heq
  constructor
  · simpa [step, harm, Agenda.arm, or_imp, forall_and] using h.retries
  · simpa [step, harm, Agenda.arm, List.nodup_append] using ⟨h.apart, by simpa using hfresh⟩
  · simpa [step, harm, Agenda.arm, or_imp, forall_and] using fun timer htimer =>
      Nat.lt_succ_of_lt (h.below timer htimer)

theorem take (h : r.Numbered) {agenda : Agenda (Job τ)}
    (htimers : agenda.timers.Sublist r.wire.agenda.timers)
    (hnext : agenda.nextTimer = r.wire.agenda.nextTimer) (job : Job τ) :
    (r.take agenda job).Numbered := by
  cases job <;> exact h.fewer htimers hnext

theorem expire (h : r.Numbered) (number : Nat) : (r.step (.expire number)).Numbered := by
  obtain hsame | ⟨timer, -, -, hexpire⟩ := r.wire.agenda.expire_cases number
  · simpa only [step, hsame] using h
  · exact h.fewer (by simp only [step, hexpire, List.filter_sublist])
      (by simp only [step, hexpire])

theorem step (h : r.Numbered) (move : Move τ) : (r.step move).Numbered := by
  cases move with
  | up =>
    exact h.fewer (by simp [Redial.step, Wire.connectionUp, Wire.timers_cancelRetry])
      (by simp [Redial.step, Wire.connectionUp])
  | down => exact h.down
  | stop =>
    exact h.fewer (by simp [Redial.step, Wire.stop, Wire.timers_cancelRetry])
      (by simp [Redial.step, Wire.stop])
  | fire =>
    obtain ⟨-, hstep⟩ | ⟨timer, rest, htimers, hstep⟩ := r.fire_cases
    · rwa [hstep]
    · rw [hstep]
      exact h.take (by simp [htimers]) (by rfl) timer.task
  | expire number => exact h.expire number
  | turn =>
    obtain ⟨-, hstep⟩ | ⟨job, rest, -, hstep⟩ := r.turn_cases
    · rwa [hstep]
    · rw [hstep]
      exact h.take (by simp) (by rfl) job
  | dial =>
    obtain ⟨wire, since, begun⟩ := r
    cases begun <;> exact ⟨h.retries, h.apart, h.below⟩
  | reach reachable => exact ⟨h.retries, h.apart, h.below⟩
  | post task => exact ⟨h.retries, h.apart, h.below⟩

theorem length_others (h : r.Numbered) {timer : Timer (Job τ)}
    (htimer : timer ∈ r.wire.agenda.timers) :
    (r.wire.agenda.timers.filter (·.number ≠ timer.number)).length + 1 =
      r.wire.agenda.timers.length := by
  have hone : r.wire.agenda.timers.countP (·.number = timer.number) = 1 := by
    have hcount := List.count_eq_one_of_mem h.apart (List.mem_map_of_mem htimer)
    rwa [List.count, List.countP_map] at hcount
  rw [← List.countP_eq_length_filter,
    List.length_eq_countP_add_countP (fun t => decide (t.number = timer.number)), hone]
  simp [Nat.add_comm]

end Numbered

theorem numbered_fresh (b : Backoff) : (fresh b : Redial τ).Numbered :=
  ⟨nofun, List.nodup_nil, nofun⟩

/-! ## What is owed stays owed -/

def total (r : Redial τ) : Nat := r.wire.link.attempts + r.owed

theorem total_take (agenda : Agenda (Job τ)) (job : Job τ) :
    (r.take agenda job).total = r.wire.link.attempts + r.begun +
      agenda.tasks.countP Job.isRetry + agenda.timers.length + if job.isRetry then 1 else 0 := by
  cases job with
  | retry =>
    simp only [take, total, owed, Wire.beginRetry, Job.isRetry, if_true]
    omega
  | drain | own =>
    simp only [take, total, owed, Job.isRetry, Bool.false_eq_true, if_false]
    omega

theorem total_expire (h : r.Numbered) (number : Nat) :
    (r.step (.expire number)).total = r.total := by
  obtain hsame | ⟨timer, htimer, rfl, hexpire⟩ := r.wire.agenda.expire_cases number
  · simp only [step, hsame]
  have hothers := h.length_others htimer
  have hretry : timer.task = .retry := h.retries timer htimer
  simp only [total, owed, step, hexpire, hretry, List.countP_append, List.countP_singleton,
    Job.isRetry, if_true]
  omega

theorem total_step (hs : r.Spent armed) (hn : r.Numbered) (move : Move τ) :
    (r.step move).total = r.total := by
  -- The reconnector knows of no timer, so none is taken back any more.
  cases move with
  | up => simp [total, owed, step, Wire.connectionUp, Wire.timers_cancelRetry, hs.timer]
  | down => simp only [step, hs.arm]
  | stop => simp [total, owed, step, Wire.stop, Wire.timers_cancelRetry, hs.timer]
  | fire =>
    obtain ⟨-, hstep⟩ | ⟨timer, rest, htimers, hstep⟩ := r.fire_cases
    · rw [hstep]
    · have hretry : timer.task = .retry := hn.retries timer (by simp [htimers])
      rw [hstep, total_take, hretry]
      simp only [total, owed, htimers, List.length_cons, Job.isRetry, if_true]
      omega
  | expire number => exact total_expire hn number
  | turn =>
    obtain ⟨-, hstep⟩ | ⟨job, rest, htasks, hstep⟩ := r.turn_cases
    · rw [hstep]
    · rw [hstep, total_take]
      simp only [total, owed, htasks, List.countP_cons]
      omega
  | dial =>
    obtain ⟨wire, since, begun⟩ := r
    cases begun with
    | zero => rfl
    | succ begun =>
      simp only [total, owed, step, ask, wire.attempts_dial]
      simp only [Wire.dial]
      omega
  | reach reachable => rfl
  | post task => simp [total, owed, step, Wire.post, Agenda.post, Job.isRetry]

/-- The attempts that a stop does not take back. -/
def escaped (r : Redial τ) : Nat :=
  r.begun + r.wire.agenda.tasks.countP Job.isRetry +
    r.wire.agenda.timers.countP (r.wire.reconnector.timer ≠ some ·.number)

theorem total_stop (r : Redial τ) : (r.step .stop).total = r.wire.link.attempts + r.escaped := by
  simp [total, owed, escaped, step, Wire.stop, Wire.timers_cancelRetry,
    List.countP_eq_length_filter]

theorem Prompt.escaped_eq (h : r.Prompt) : r.escaped = r.begun := by
  have htasks : r.wire.agenda.tasks.countP Job.isRetry = 0 := by
    refine List.countP_eq_zero.mpr fun job hjob hretry => h.tasks ?_
    cases job with
    | retry => exact hjob
    | drain | own => cases hretry
  have htimers : r.wire.agenda.timers.countP (r.wire.reconnector.timer ≠ some ·.number) = 0 :=
    List.countP_eq_zero.mpr fun timer htimer => by simp [h.known htimer]
  rw [escaped, htasks, htimers, Nat.add_zero]

theorem total_after (hs : r.Spent armed) (hn : r.Numbered) (moves : List (Move τ)) :
    (r.after moves).Spent armed ∧ (r.after moves).total = r.total := by
  have hkept : (r.after moves).Spent armed ∧ (r.after moves).Numbered ∧
      (r.after moves).total = r.total := by
    refine keeps (P := fun q => q.Spent armed ∧ q.Numbered ∧ q.total = r.total) ⟨hs, hn, rfl⟩ ?_
    rintro move - q ⟨hqs, hqn, hq⟩
    exact ⟨hqs.step move, hqn.step move, (total_step hqs hqn move).trans hq⟩
  exact ⟨hkept.1, hkept.2.2⟩

theorem attempts_step (r : Redial τ) (move : Move τ) :
    r.wire.link.attempts ≤ (r.step move).wire.link.attempts := by
  have htook {move : Move τ} (hmove : move = .fire ∨ move = .turn) :
      (r.step move).wire.link = r.wire.link := by
    obtain hstep | ⟨agenda, job, -, hstep⟩ := r.took hmove
    · rw [hstep]
    · rw [hstep]
      cases job <;> rfl
  cases move with
  | up => simp [step, Wire.connectionUp]
  | down => simp [step, Wire.link_arm]
  | stop => simp [step, Wire.stop]
  | fire => rw [htook (Or.inl rfl)]
  | turn => rw [htook (Or.inr rfl)]
  | dial =>
    obtain ⟨wire, since, begun⟩ := r
    cases begun with
    | zero => exact Nat.le_refl _
    | succ begun => exact (Nat.le_succ _).trans_eq wire.attempts_dial.symm
  | expire | reach | post => exact Nat.le_refl _

theorem attempts_after (r : Redial τ) (moves : List (Move τ)) :
    r.wire.link.attempts ≤ (r.after moves).wire.link.attempts :=
  keeps (P := fun q => r.wire.link.attempts ≤ q.wire.link.attempts) (Nat.le_refl _)
    fun move _ q hq => hq.trans (q.attempts_step move)

/-! ## What is owed is made -/

/-- A timer becomes a task and a task an attempt, so each weighs more than what it becomes. -/
def patience (r : Redial τ) : Nat :=
  r.begun + 2 * r.wire.agenda.tasks.length + 3 * r.wire.agenda.timers.length

theorem owed_or_proceeds (r : Redial τ) :
    r.owed = 0 ∨ ∃ move : Move τ, move.proceeds ∧ (r.step move).patience < r.patience := by
  obtain ⟨⟨⟨tasks, timers, _, _⟩, _, _, _, _⟩, _, begun⟩ := r
  cases begun with
  | succ begun =>
    refine Or.inr ⟨.dial, rfl, ?_⟩
    simp only [patience, step, ask, Wire.dial]
    omega
  | zero =>
    cases tasks with
    | cons job rest =>
      refine Or.inr ⟨.turn, rfl, ?_⟩
      cases job <;>
        simp only [patience, step, Agenda.next?, take, Wire.beginRetry, List.length_cons] <;>
        omega
    | nil =>
      cases timers with
      | cons timer rest =>
        refine Or.inr ⟨.expire timer.number, rfl, ?_⟩
        have hothers := List.length_filter_le (·.number ≠ timer.number) rest
        simp [patience, step, Agenda.expire] at hothers ⊢
        omega
      | nil => exact Or.inl rfl

theorem exists_settled (r : Redial τ) :
    ∃ moves : List (Move τ), (∀ move ∈ moves, move.proceeds) ∧ (r.after moves).owed = 0 := by
  induction hpatience : r.patience using Nat.strong_induction_on generalizing r with
  | h n ih =>
    obtain howed | ⟨move, hmove, hless⟩ := r.owed_or_proceeds
    · exact ⟨[], nofun, howed⟩
    · obtain ⟨moves, hmoves, howed⟩ := ih _ (hpatience ▸ hless) (r.step move) rfl
      exact ⟨move :: moves, List.forall_mem_cons.mpr ⟨hmove, hmoves⟩, howed⟩

end Redial

/-! ## Any timer -/

/-- An agenda on which the task of a timer is the number of the timer, and the tasks that had their
turn. -/
structure Rota where
  agenda : Agenda (Option Nat) := {}
  done : List (Option Nat) := []

namespace Rota

inductive Move
  | post
  | arm (delay : Nat)
  | cancel (number : Nat)
  | expire (number : Nat)
  | turn
deriving DecidableEq

def step (r : Rota) : Move → Rota
  | .post => { r with agenda := r.agenda.post none }
  | .arm delay => { r with agenda := (r.agenda.arm delay (some r.agenda.nextTimer)).2 }
  | .cancel number => { r with agenda := r.agenda.cancel number }
  | .expire number => { r with agenda := r.agenda.expire number }
  | .turn =>
    match r.agenda.next? with
    | none => r
    | some (task, agenda) => { agenda, done := r.done ++ [task] }

def after (r : Rota) (moves : List Move) : Rota := moves.foldl step r

variable {r : Rota} {number : Nat}

theorem keeps {P : Rota → Prop} (hstep : ∀ r move, P r → P (r.step move)) (hr : P r)
    (moves : List Move) : P (r.after moves) := by
  induction moves generalizing r with
  | nil => exact hr
  | cons move rest ih => exact ih (hstep r move hr)

theorem turn_cases (r : Rota) : r.agenda.tasks = [] ∧ r.step .turn = r ∨
    ∃ task rest, r.agenda.tasks = task :: rest ∧
      r.step .turn = ⟨{ r.agenda with tasks := rest }, r.done ++ [task]⟩ := by
  obtain ⟨⟨tasks, timers, armed, nextTimer⟩, done⟩ := r
  cases tasks with
  | nil => exact Or.inl ⟨rfl, rfl⟩
  | cons task rest => exact Or.inr ⟨task, rest, rfl, rfl⟩

def Labelled (r : Rota) : Prop := ∀ timer ∈ r.agenda.timers, timer.task = some timer.number

theorem Labelled.step (h : r.Labelled) (move : Move) : (r.step move).Labelled := by
  cases move with
  | post => exact h
  | arm delay => simpa [Labelled, Rota.step, Agenda.arm, or_imp, forall_and] using h
  | cancel number => exact fun timer htimer => h timer (List.mem_filter.mp htimer).1
  | expire number =>
    obtain hsame | ⟨timer, -, -, hexpire⟩ := r.agenda.expire_cases number
    · simpa only [Rota.step, hsame] using h
    · simp only [Rota.step, hexpire]
      exact fun timer htimer => h timer (List.mem_filter.mp htimer).1
  | turn =>
    obtain ⟨-, hstep⟩ | ⟨task, rest, -, hstep⟩ := r.turn_cases
    · rwa [hstep]
    · rw [hstep]
      exact h

/-- The timer of this number was armed and is no more, and its task is nowhere. -/
structure Gone (number : Nat) (r : Rota) : Prop where
  armed : number < r.agenda.nextTimer
  timers : ∀ timer ∈ r.agenda.timers, timer.number ≠ number
  tasks : some number ∉ r.agenda.tasks
  done : some number ∉ r.done

theorem Gone.step (h : r.Gone number) (hlabelled : r.Labelled) (move : Move) :
    (r.step move).Gone number := by
  cases move with
  | post => exact ⟨h.armed, h.timers, by simpa [Rota.step, Agenda.post] using h.tasks, h.done⟩
  | arm delay =>
    refine ⟨Nat.lt_succ_of_lt h.armed, ?_, h.tasks, h.done⟩
    simpa [Rota.step, Agenda.arm, or_imp, forall_and] using ⟨h.timers, h.armed.ne'⟩
  | cancel other =>
    exact ⟨h.armed, fun timer htimer => h.timers timer (List.mem_filter.mp htimer).1, h.tasks,
      h.done⟩
  | expire other =>
    obtain hsame | ⟨timer, htimer, -, hexpire⟩ := r.agenda.expire_cases other
    · simpa only [Rota.step, hsame] using h
    have hother : some number ≠ timer.task := by
      rw [hlabelled timer htimer]
      exact fun heq => h.timers timer htimer (Option.some.inj heq).symm
    simp only [Rota.step, hexpire]
    refine ⟨h.armed, fun timer htimer => h.timers timer (List.mem_filter.mp htimer).1, ?_, h.done⟩
    simpa using ⟨h.tasks, hother⟩
  | turn =>
    obtain ⟨-, hstep⟩ | ⟨task, rest, htasks, hstep⟩ := r.turn_cases
    · rwa [hstep]
    have hcalm := h.tasks
    rw [htasks, List.mem_cons, not_or] at hcalm
    rw [hstep]
    exact ⟨h.armed, h.timers, hcalm.2, by simpa using ⟨h.done, hcalm.1⟩⟩

theorem done_step (r : Rota) (move : Move) : r.done <+: (r.step move).done := by
  cases move with
  | turn =>
    obtain ⟨-, hstep⟩ | ⟨task, rest, -, hstep⟩ := r.turn_cases
    · simp only [hstep, List.prefix_rfl]
    · simp only [hstep, List.prefix_append]
  | post | arm | cancel | expire => exact List.prefix_rfl

theorem done_after (r : Rota) (moves : List Move) : r.done <+: (r.after moves).done :=
  keeps (P := fun later => r.done <+: later.done)
    (fun later move h => h.trans (later.done_step move)) List.prefix_rfl moves

theorem tasks_step (r : Rota) {move : Move} (h : move ≠ .turn) :
    r.agenda.tasks <+: (r.step move).agenda.tasks := by
  cases move with
  | turn => exact absurd rfl h
  | post => exact List.prefix_append ..
  | arm | cancel => exact List.prefix_rfl
  | expire number =>
    obtain hsame | ⟨timer, -, -, hexpire⟩ := r.agenda.expire_cases number
    · simp only [step, hsame, List.prefix_rfl]
    · simp only [step, hexpire, List.prefix_append]

theorem front_done {front : List (Option Nat)} (hfront : front <+: r.agenda.tasks)
    {moves : List Move} (hmoves : front.length ≤ moves.count .turn) :
    r.done ++ front <+: (r.after moves).done := by
  induction moves generalizing r front with
  | nil =>
    obtain rfl : front = [] := List.eq_nil_of_length_eq_zero (by simpa using hmoves)
    exact (List.append_nil r.done).symm ▸ List.prefix_rfl
  | cons move rest ih =>
    by_cases hturn : move = .turn
    -- A turn serves the first of the front; other moves leave the front where it is.
    · subst hturn
      cases front with
      | nil => exact (List.append_nil r.done).symm ▸ r.done_after _
      | cons task front =>
        obtain ⟨back, hback⟩ := hfront
        have hstep :
            r.step .turn = ⟨{ r.agenda with tasks := front ++ back }, r.done ++ [task]⟩ := by
          simp only [step, Agenda.next?, ← hback, List.cons_append]
        have hrest : front <+: (r.step .turn).agenda.tasks := by
          rw [hstep]
          exact List.prefix_append ..
        have hlater := ih hrest (by simpa using hmoves)
        have hdone : (r.step .turn).done = r.done ++ [task] := by rw [hstep]
        rwa [hdone, List.append_assoc, List.singleton_append] at hlater
    · have hlater := ih (hfront.trans (r.tasks_step hturn))
        (by rwa [List.count_cons_of_ne hturn] at hmoves)
      have hdone : (r.step move).done = r.done := by
        cases move <;> first | rfl | exact absurd rfl hturn
      rwa [hdone] at hlater

end Rota

/-! ## The results -/

structure CancelKept (r : Rota) : Prop where
  /-- Before its delay is over, the task never has its turn. -/
  early {number : Nat} : number < r.agenda.nextTimer → some number ∉ r.agenda.tasks →
    some number ∉ r.done →
      ∀ moves, some number ∉ ((r.step (.cancel number)).after moves).done
  /-- Afterwards it has its turn after those before it. -/
  late {number : Nat} : some number ∈ r.agenda.tasks →
    ∀ moves, r.agenda.tasks.length ≤ moves.count .turn →
      some number ∈ ((r.step (.cancel number)).after moves).done

theorem cancelKept_after (moves : List Rota.Move) : CancelKept (Rota.after {} moves) := by
  have hlabelled : (Rota.after {} moves).Labelled :=
    Rota.keeps (fun _ move h => h.step move) nofun moves
  generalize Rota.after {} moves = r at hlabelled
  constructor
  case early =>
    intro number harmed htasks hdone more
    have hgone : (r.step (.cancel number)).Gone number ∧ (r.step (.cancel number)).Labelled :=
      ⟨⟨harmed, fun timer htimer => by simpa using (List.mem_filter.mp htimer).2, htasks, hdone⟩,
        hlabelled.step _⟩
    have hlater := Rota.keeps (P := fun q => q.Gone number ∧ q.Labelled)
      (fun _ move h => ⟨h.1.step h.2 move, h.2.step move⟩) hgone more
    exact hlater.1.done
  case late =>
    intro number htasks more hmore
    have hfront : r.agenda.tasks <+: (r.step (.cancel number)).agenda.tasks := List.prefix_rfl
    have hdone := Rota.front_done hfront hmore
    exact hdone.subset (List.mem_append_right _ htasks)

namespace Redial

structure StopKept (moves : List (Move τ)) (r : Redial τ) : Prop where
  /-- The link is asked as often as there were attempts that the stop did not take back, as far as
  they are not still owed. -/
  later {more : List (Move τ)} :
    let later := (r.step .stop).after more
    later.wire.agenda.armed = r.wire.agenda.armed ∧
      later.wire.link.attempts + later.owed = r.wire.link.attempts + r.escaped
  /-- The strand makes them all if it just goes on. -/
  made : ∃ more : List (Move τ), (∀ move ∈ more, move.proceeds) ∧
    ((r.step .stop).after more).wire.link.attempts = r.wire.link.attempts + r.escaped
  final : (∀ more, ((r.step .stop).after more).wire.link.attempts = r.wire.link.attempts) ↔
    r.escaped = 0
  /-- Where timers only fire, an attempt that has begun is the only one to escape. -/
  atOnce : (∀ move ∈ moves, move.atOnce) → r.escaped = r.begun
  /-- An attempt asks the link even if those who hear that it started stop the reconnector. -/
  asked {w : Wire τ} {hear : Wire.Hearing τ} :
    (∀ heard v, (hear heard v).link.attempts = v.link.attempts) →
      ((Station.retry : Wire.Heard τ Unit) hear w).2.link.attempts = w.link.attempts + 1
  /-- An attempt that has its turn is a series of moves, and so is what others make of it. -/
  attempt {rest : List (Job τ)} {own : τ → Wire.Heard τ Unit}
    {hear : Wire.Hearing τ} : r.wire.agenda.tasks = .retry :: rest →
      (∀ heard w, Leads (fun _ => True) w (hear heard w)) →
        Leads (fun _ => True) r.wire (Station.work own .retry hear
          { r.wire with agenda := { r.wire.agenda with tasks := rest } }).2

theorem stopKept (b : Backoff) (moves : List (Move τ)) (others : List Rota.Move) :
    StopKept moves ((fresh b).after moves) ∧ CancelKept (Rota.after {} others) := by
  refine ⟨?_, cancelKept_after others⟩
  have hprompt : (∀ move ∈ moves, move.atOnce) → ((fresh b).after moves).Prompt :=
    (prompt_fresh b).after
  have hnumbered : ((fresh b).after moves).Numbered :=
    keeps (numbered_fresh b) fun move _ _ hr => hr.step move
  generalize (fresh b).after moves = r at hprompt hnumbered
  have hlater (more : List (Move τ)) :
      ((r.step .stop).after more).wire.agenda.armed = r.wire.agenda.armed ∧
        ((r.step .stop).after more).total = r.wire.link.attempts + r.escaped := by
    obtain ⟨hspent, htotal⟩ := total_after (spent_stop r) (hnumbered.step .stop) more
    exact ⟨hspent.armed, htotal.trans r.total_stop⟩
  obtain ⟨more, hproceeds, howed⟩ := (r.step .stop).exists_settled
  have hmade :
      ((r.step .stop).after more).wire.link.attempts = r.wire.link.attempts + r.escaped := by
    have htotal := (hlater more).2
    rwa [total, howed] at htotal
  constructor
  case later => exact hlater _
  case made => exact ⟨more, hproceeds, hmade⟩
  case final =>
    constructor
    · intro hstill
      have hsame := hstill more
      omega
    · intro hescaped other
      have htotal := (hlater other).2
      have hmore := (r.attempts_step .stop).trans ((r.step .stop).attempts_after other)
      simp only [total] at htotal
      omega
  case atOnce => exact fun hmoves => (hprompt hmoves).escaped_eq
  case asked =>
    intro w hear hhear
    rw [Wire.retry_heard]
    dsimp only
    rw [Wire.link_arm]
    split <;> rw [hhear, Wire.attempts_dial, hhear] <;> rfl
  case attempt =>
    intro rest own hear htasks hhear
    refine leads_retry hhear .turn (fun since begun => ?_) ⟨trivial, trivial, trivial⟩
    simp only [step, Agenda.next?, htasks, take]

/-- An attempt whose timer expired before the stop connects all the same. -/
example : ((fresh {} : Redial Empty).after [.down, .expire 0, .stop, .turn, .dial]).wire.link =
    { connected := true, attempts := 1 } := by decide

end Redial

end ValueTree
