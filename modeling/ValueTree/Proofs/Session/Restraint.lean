import ValueTree.Proofs.Session.Reports

/-!
# Clients that are not to connect again

Such a client arms no timer when a connection is lost. It still arms one when a start fails, and
each timer that fires arms the next until a connection comes up or the client is shut down. As long
as no start fails, each start is one attempt to connect and there is no other.
-/

namespace ValueTree

namespace Retries

variable {r : Retries}

theorem nextTimer_arm : r.arm.nextTimer ≤ r.nextTimer + 1 := by
  unfold arm
  split
  · exact Nat.le_succ _
  · exact Nat.le_refl _

theorem nextTimer_disarm : r.disarm.nextTimer = r.nextTimer := by
  unfold disarm
  split <;> rfl

end Retries

namespace Line

variable {l m : Line} {move : Move} {moves : List Move}

def Move.starts : Move → Bool
  | .started _ => true
  | _ => false

/-- What arms a timer though the client is not to connect again. -/
def Move.arms : Move → Bool
  | .started ok => !ok
  | .retried _ => true
  | _ => false

structure Restrained (l : Line) : Prop where
  sound : l.Sound
  reconnects : l.reconnects = false

namespace Restrained

theorem goDown_eq (hl : l.Restrained) (rest : List Bool) (queue : List Message) :
    l.goDown rest queue =
      { l with news := rest, state := .disconnected, sends := false, queue } :=
  goDown_of_not (by simp [hl.reconnects]) rest queue

theorem step (hl : l.Restrained) (h : Step l move m) : m.Restrained := by
  refine ⟨hl.sound.step h, ?_⟩
  cases h <;> exact hl.reconnects

theorem path (hl : l.Restrained) (h : Path moves l m) : m.Restrained :=
  h.keeps (fun _ hl hstep => hl.step hstep) hl

theorem nextTimer_step (hl : l.Restrained) (h : Step l move m) :
    m.retries.nextTimer ≤ l.retries.nextTimer + if move.arms then 1 else 0 := by
  cases h with
  | queue _ | send _ _ | lose _ => exact Nat.le_refl _
  | start ok _ =>
    cases ok with
    | true => exact Nat.le_refl _
    | false => exact Retries.nextTimer_arm
  | retry ok _ => exact Retries.nextTimer_arm
  | comeUp _ | stop => exact Nat.le_of_eq Retries.nextTimer_disarm
  | goDown _ _ =>
    rw [hl.goDown_eq]
    exact Nat.le_refl _

theorem nextTimer_path (hl : l.Restrained) (h : Path moves l m) :
    m.retries.nextTimer ≤ l.retries.nextTimer + moves.countP (·.arms) := by
  induction h with
  | nil l => exact Nat.le_refl _
  | cons hstep _ ih =>
    have hfirst := hl.nextTimer_step hstep
    have hrest := ih (hl.step hstep)
    rw [List.countP_cons]
    omega

/-- Without a timer, a start that fails is the only thing that arms one. -/
theorem quiet_step (hl : l.Restrained) (htimers : l.retries.timers = []) (h : Step l move m)
    (hmove : move ≠ .started false) :
    m.retries.timers = [] ∧ m.retries.nextTimer = l.retries.nextTimer ∧
      m.attempts = l.attempts + if move.starts then 1 else 0 := by
  cases h with
  | queue _ | send _ _ | lose _ => exact ⟨htimers, rfl, rfl⟩
  | start ok _ =>
    cases ok with
    | true => exact ⟨htimers, rfl, rfl⟩
    | false => exact absurd rfl hmove
  | retry _ hwaits =>
    rw [htimers] at hwaits
    cases hwaits
  | comeUp _ | stop => exact ⟨hl.sound.retries.disarm, Retries.nextTimer_disarm, rfl⟩
  | goDown _ _ =>
    rw [hl.goDown_eq]
    exact ⟨htimers, rfl, rfl⟩

theorem quiet_path (hl : l.Restrained) (htimers : l.retries.timers = []) (h : Path moves l m)
    (hmoves : .started false ∉ moves) :
    m.retries.timers = [] ∧ m.retries.nextTimer = l.retries.nextTimer ∧
      m.attempts = l.attempts + moves.countP (·.starts) := by
  induction h with
  | nil l => exact ⟨htimers, rfl, rfl⟩
  | cons hstep _ ih =>
    rw [List.mem_cons, not_or] at hmoves
    obtain ⟨hnone, hnext, hattempts⟩ := hl.quiet_step htimers hstep (Ne.symm hmoves.1)
    obtain ⟨hlast, hnext', hattempts'⟩ := ih (hl.step hstep) hnone hmoves.2
    refine ⟨hlast, hnext'.trans hnext, ?_⟩
    rw [hattempts', hattempts, List.countP_cons]
    omega

end Restrained

theorem restrained_first {config : ClientConfig} (hauto : config.autoReconnect = false) :
    (first config).Restrained :=
  ⟨sound_first config, hauto⟩

/-- Until it is shut down a client may connect as often as it was told at first. -/
theorem max?_step (h : Step l move m) (hmove : ∀ news, move ≠ .stopped news) :
    m.retries.reconnector.backoff.max? = l.retries.reconnector.backoff.max? := by
  cases h with
  | queue _ | send _ _ | lose _ | comeUp _ => rfl
  | start ok _ =>
    cases ok with
    | true => rfl
    | false => exact Retries.max?_arm
  | retry _ _ => exact Retries.max?_arm
  | goDown _ _ =>
    unfold goDown
    split
    · exact Retries.max?_arm
    · rfl
  | stop => exact absurd rfl (hmove _)

theorem Path.max? (h : Path moves l m) (hmoves : ∀ news, .stopped news ∉ moves) :
    m.retries.reconnector.backoff.max? = l.retries.reconnector.backoff.max? :=
  h.keeps (P := fun k => k.retries.reconnector.backoff.max? = l.retries.reconnector.backoff.max?)
    (fun hmem hk hstep => (max?_step hstep fun news heq => hmoves news (heq ▸ hmem)).trans hk) rfl

end Line

open Line

namespace Session

/-- What is true of the attempts of a client that is not to connect again. -/
structure RestraintKept (backoff : Backoff) (start : Session) : Prop where
  /-- Whatever is asked of the session, the line of the client makes one move after another. Every
  start and every timer that fired was an attempt, and only a start that failed and a timer that
  fired armed a timer. -/
  path {inner outer : ClientCommand → Prop} {commands : List Command} {l : Line} :
    (∀ command, inner command → outer command) →
      (∀ command ∈ commands, command.Tame inner outer) → (start.steps commands).2.line? = some l →
        ∃ moves, start.Led moves l ∧ (∀ move ∈ moves, move.Within outer) ∧
          l.attempts = moves.countP (·.attempts) ∧ l.retries.nextTimer ≤ moves.countP (·.arms)
  /-- As long as no start fails no timer was ever armed, and every attempt was a start. -/
  never {moves : List Move} {l : Line} : start.Led moves l → .started false ∉ moves →
    l.retries.timers = [] ∧ l.retries.nextTimer = 0 ∧ l.attempts = moves.countP (·.starts)
  /-- It is so again once no timer waits any more. -/
  again {moves more : List Move} {l m : Line} : start.Led moves l → l.retries.timers = [] →
    Path more l m → .started false ∉ more →
      m.retries.timers = [] ∧ m.retries.nextTimer = l.retries.nextTimer ∧
        m.attempts = l.attempts + more.countP (·.starts)
  /-- A start that fails arms one all the same, if the client may try as often as it takes. -/
  armed {moves : List Move} {l m : Line} : backoff.max? = none → start.Led moves l →
    (∀ news, .stopped news ∉ moves) → Step l (.started false) m → m.retries.timers ≠ []
  /-- The loss of a connection arms nothing and takes nothing back. -/
  lost {moves : List Move} {l m : Line} : start.Led moves l → Step l (.told false) m →
    m.retries = l.retries
  /-- No timer waits once a connection came up or the client was shut down. -/
  ended {moves : List Move} {l m : Line} {move : Move} : start.Led moves l → Step l move m →
    (move = .told true ∨ ∃ news, move = .stopped news) → m.retries.timers = []

theorem restraintKept (files : FileTree) (config : ClientConfig) :
    RestraintKept config.backoff
      ((fresh files).seatClient { config with autoReconnect := false }) where
  path {inner outer commands l} hallowed htame hl := by
    obtain ⟨moves, hpath, hwithin⟩ := path_start hallowed htame hl
    refine ⟨moves, ⟨_, rfl, hpath⟩, hwithin, hpath.attempts.trans (Nat.zero_add _), ?_⟩
    exact Nat.le_trans ((restrained_first rfl).nextTimer_path hpath) (Nat.le_of_eq (Nat.zero_add _))
  never {moves l} hled hmoves := by
    obtain ⟨htimers, hnext, hattempts⟩ :=
      (restrained_first rfl).quiet_path rfl (path_of_led hled) hmoves
    exact ⟨htimers, hnext, hattempts.trans (Nat.zero_add _)⟩
  again hled htimers hmore hmoves :=
    ((restrained_first rfl).path (path_of_led hled)).quiet_path htimers hmore hmoves
  armed {moves l m} hmax hled hstop hstep := by
    have hpath := path_of_led hled
    have hl := (restrained_first rfl).path hpath
    have hunlimited := (hpath.max? hstop).trans hmax
    cases hstep with
    | start _ _ => exact Retries.timers_arm hl.sound.retries hunlimited
  lost {moves l m} hled hstep := by
    have hl := (restrained_first rfl).path (path_of_led hled)
    cases hstep with
    | goDown _ _ => rw [hl.goDown_eq]
  ended {moves l m move} hled hstep hmove := by
    have hl := (restrained_first rfl).path (path_of_led hled)
    rcases hmove with rfl | ⟨news, rfl⟩
    · cases hstep with
      | comeUp _ => exact hl.sound.retries.disarm
    · cases hstep with
      | stop => exact hl.sound.retries.disarm

/-- A start that fails, and two timers that fire. -/
example :
    let s := (((fresh {}).seatClient { app := "log", autoReconnect := false }).steps
      [.wire (.reachable false), .client .start, .wire .fire, .wire .fire]).2
    s.line?.map (fun l => (l.attempts, l.retries.timers)) = some (3, [2]) := by
  decide +kernel

end Session

end ValueTree
