import ValueTree.Sync.Client

/-!
# Lines

A line is what a client and its wire have to do with the connection: what the client takes the link
for, what the link is, and the notices on the agenda that tell the one of the other. It moves when
the client is started or shut down, when a timer fires, when the link is lost, and when a notice or
a message has its turn.
-/

namespace ValueTree

/-! ## Retries -/

/-- The timers that wait to connect again, and the reconnector that arms them. -/
structure Retries where
  reconnector : Reconnector
  /-- The numbers of the timers. -/
  timers : List Nat := []
  nextTimer : Nat := 0

namespace Retries

/-- A timer waits, unless one does already or the attempts are used up. -/
def arm (r : Retries) : Retries :=
  match r.reconnector.delay? with
  | none => r
  | some delay =>
    { reconnector := r.reconnector.waiting r.nextTimer delay
      timers := r.timers ++ [r.nextTimer]
      nextTimer := r.nextTimer + 1 }

def disarm (r : Retries) : Retries :=
  match r.reconnector.timer with
  | some number => { r with timers := r.timers.filter (· ≠ number) }
  | none => r

/-- A timer fired, and these are left. -/
def fire (r : Retries) (rest : List Nat) : Retries :=
  { r with reconnector := r.reconnector.fired, timers := rest }

def reset (r : Retries) : Retries := { r.disarm with reconnector := r.reconnector.connected }

def stop (r : Retries) : Retries := { r.disarm with reconnector := r.reconnector.stopped }

/-- The timer that the reconnector knows of is the only one. -/
def Sound (r : Retries) : Prop := r.timers = r.reconnector.timer.toList

/-- There will be no attempt any more. -/
structure Spent (r : Retries) : Prop where
  backoff : r.reconnector.backoff.max? = some 0
  timers : r.timers = []

variable {r : Retries} {number : Nat} {rest : List Nat}

theorem max?_arm : r.arm.reconnector.backoff.max? = r.reconnector.backoff.max? := by
  unfold arm
  split <;> rfl

theorem Sound.arm (h : r.Sound) : r.arm.Sound := by
  unfold Retries.arm
  split
  · exact h
  · rename_i delay hdelay
    have hnone : r.reconnector.timer = none := by
      unfold Reconnector.delay? at hdelay
      cases htimer : r.reconnector.timer <;> simp_all
    rw [Sound, hnone] at h
    simp [Sound, h, Reconnector.waiting]

theorem Sound.disarm (h : r.Sound) : r.disarm.timers = [] := by
  unfold Retries.disarm
  split
  · rename_i number hnumber
    rw [Sound, hnumber] at h
    simp [h]
  · rename_i hnone
    rw [h, hnone]
    rfl

theorem Sound.fire (h : r.Sound) (htimers : r.timers = number :: rest) :
    rest = [] ∧ (r.fire rest).Sound := by
  rw [h] at htimers
  cases htimer : r.reconnector.timer with
  | none => simp [htimer] at htimers
  | some waiting =>
    obtain ⟨-, rfl⟩ : waiting = number ∧ rest = [] := by simpa [htimer] using htimers
    exact ⟨rfl, rfl⟩

theorem Sound.reset (h : r.Sound) : r.reset.timers = [] ∧ r.reset.Sound :=
  ⟨h.disarm, h.disarm⟩

theorem Sound.stop (h : r.Sound) : r.stop.Spent ∧ r.stop.Sound :=
  ⟨⟨rfl, h.disarm⟩, h.disarm⟩

theorem Spent.arm (h : r.Spent) : r.arm.Spent := by
  have hnone : r.reconnector.delay? = none := by
    simp [Reconnector.delay?, Backoff.isExhausted, h.backoff]
  unfold Retries.arm
  rwa [hnone]

theorem Spent.reset (h : r.Spent) (hs : r.Sound) : r.reset.Spent := ⟨h.backoff, hs.reset.1⟩

/-- A timer waits after it was armed, if any number of attempts may be made. -/
theorem timers_arm (h : r.Sound) (hbackoff : r.reconnector.backoff.max? = none) :
    r.arm.timers ≠ [] := by
  unfold Retries.arm
  split
  · rename_i hdelay
    have hsome : r.reconnector.timer ≠ none := by
      simpa [Reconnector.delay?, Backoff.isExhausted, hbackoff] using hdelay
    obtain ⟨number, hnumber⟩ := Option.ne_none_iff_exists'.mp hsome
    rw [h, hnumber]
    exact List.cons_ne_nil _ _
  · simp

end Retries

/-! ## Lines -/

structure Line where
  state : ConnectionState := .disconnected
  started : Bool := false
  /-- The client is to connect again. -/
  reconnects : Bool
  /-- The link is up. -/
  up : Bool := false
  /-- How often it was tried to connect. -/
  attempts : Nat := 0
  /-- The notices of the link that wait: each says whether it came up or went down. -/
  news : List Bool := []
  /-- Messages may leave. -/
  sends : Bool := false
  queue : List Message := []
  retries : Retries

/-- How an attempt to connect again shows in the state. -/
def ConnectionState.after (state : ConnectionState) : Attempt → ConnectionState
  | .started => if state = .disconnected then .connecting else state
  | .failed => if state = .connecting then .disconnected else state

namespace Line

/-- An attempt to connect. A success is told by a notice. -/
def dial (l : Line) (ok : Bool) : Line :=
  { l with
    attempts := l.attempts + 1
    up := ok || l.up
    news := if ok then l.news ++ [true] else l.news }

def start (l : Line) (ok : Bool) : Line :=
  { l.dial ok with
    started := true
    state := if ok then .connecting else .disconnected
    retries := if ok then l.retries else l.retries.arm }

/-- A timer fired, and these are left. -/
def retry (l : Line) (rest : List Nat) (ok : Bool) : Line :=
  let tried := l.state.after .started
  { l.dial ok with
    state := if ok then tried else tried.after .failed
    retries := (l.retries.fire rest).arm }

def lose (l : Line) : Line := { l with up := false, news := l.news ++ [false] }

/-- The notice that the link came up has its turn. -/
def comeUp (l : Line) (rest : List Bool) : Line :=
  { l with news := rest, state := .connected, sends := true, retries := l.retries.reset }

/-- The notice that the link went down has its turn, and this is left to send. -/
def goDown (l : Line) (rest : List Bool) (queue : List Message) : Line :=
  { l with
    news := rest
    state := .disconnected
    sends := false
    queue
    retries := if l.reconnects then l.retries.arm else l.retries }

theorem goDown_of_reconnects {l : Line} (h : l.reconnects = true) (rest : List Bool)
    (queue : List Message) : l.goDown rest queue =
      { l with
        news := rest
        state := .disconnected
        sends := false
        queue
        retries := l.retries.arm } := by
  rw [goDown, if_pos h]

theorem goDown_of_not {l : Line} (h : ¬l.reconnects = true) (rest : List Bool)
    (queue : List Message) : l.goDown rest queue =
      { l with news := rest, state := .disconnected, sends := false, queue } := by
  rw [goDown, if_neg h]

def stop (l : Line) : Line :=
  { l with
    state := .disconnected
    started := false
    up := false
    sends := false
    retries := l.retries.stop }

/-! ## Moves -/

inductive Move
  | queued (message : Message)
  | sent (message : Message)
  | started (ok : Bool)
  | retried (ok : Bool)
  | lost
  | told (up : Bool)
  /-- The client is shut down while these notices wait. -/
  | stopped (news : List Bool)
deriving DecidableEq, Repr

inductive Step (l : Line) : Move → Line → Prop
  | queue (message : Message) :
    Step l (.queued message) { l with queue := l.queue ++ [message] }
  | send {message : Message} {rest : List Message} : l.sends = true → l.queue = message :: rest →
    Step l (.sent message) { l with queue := rest }
  | start (ok : Bool) : l.started = false → Step l (.started ok) (l.start ok)
  | retry {number : Nat} {rest : List Nat} (ok : Bool) : l.retries.timers = number :: rest →
    Step l (.retried ok) (l.retry rest ok)
  | lose : l.up = true → Step l .lost l.lose
  | comeUp {rest : List Bool} : l.news = true :: rest → Step l (.told true) (l.comeUp rest)
  /-- Only if a connection was up, and is to come up again, is there something else to send. -/
  | goDown {rest : List Bool} {queue : List Message} : l.news = false :: rest →
    (queue ≠ l.queue → l.reconnects = true ∧ l.state = .connected) →
      Step l (.told false) (l.goDown rest queue)
  | stop : Step l (.stopped l.news) l.stop

inductive Path : List Move → Line → Line → Prop
  | nil (l : Line) : Path [] l l
  | cons {move : Move} {moves : List Move} {l m n : Line} :
    Step l move m → Path moves m n → Path (move :: moves) l n

variable {l m n : Line} {move : Move} {moves more : List Move}

namespace Path

theorem single (h : Step l move m) : Path [move] l m := .cons h (.nil m)

theorem append (h : Path moves l m) (h' : Path more m n) : Path (moves ++ more) l n := by
  induction h with
  | nil l => exact h'
  | cons hstep _ ih => exact .cons hstep (ih h')

/-- What every move of a path keeps holds at its end. -/
theorem keeps {P : Line → Prop} (h : Path moves l n)
    (hstep : ∀ {move l m}, move ∈ moves → P l → Step l move m → P m) (hl : P l) : P n := by
  induction h with
  | nil l => exact hl
  | cons hfirst _ ih =>
    have hm := hstep List.mem_cons_self hl hfirst
    exact ih (fun hmem => hstep (List.mem_cons_of_mem _ hmem)) hm

end Path

/-! ## Attempts -/

/-- A start and a timer are an attempt to connect each, and nothing else is. -/
def Move.attempts : Move → Bool
  | .started _ | .retried _ => true
  | _ => false

theorem Step.attempts (h : Step l move m) :
    m.attempts = l.attempts + if move.attempts then 1 else 0 := by
  cases h <;> rfl

theorem Path.attempts (h : Path moves l m) :
    m.attempts = l.attempts + moves.countP (·.attempts) := by
  induction h with
  | nil l => rfl
  | cons hstep _ ih =>
    rw [ih, hstep.attempts, List.countP_cons]
    omega

/-! ## Clients that are not started -/

/-- A client that is not started has no link and no timer. If a notice waits it was shut down, and
there will be no timer. -/
structure Sound (l : Line) : Prop where
  retries : l.retries.Sound
  down : l.started = false → l.up = false
  asleep : l.started = false → l.retries.timers = []
  spent : l.started = false → l.news ≠ [] → l.retries.Spent

theorem Sound.step (hl : l.Sound) (h : Step l move m) : m.Sound := by
  cases h with
  | queue _ | send _ _ => exact ⟨hl.retries, hl.down, hl.asleep, hl.spent⟩
  | start ok _ =>
    refine ⟨?_, nofun, nofun, nofun⟩
    cases ok with
    | true => exact hl.retries
    | false => exact hl.retries.arm
  | @retry number rest ok htimers =>
    have hawake : l.started ≠ false := by
      intro hnot
      rw [hl.asleep hnot] at htimers
      cases htimers
    exact ⟨(hl.retries.fire htimers).2.arm, fun h => absurd h hawake, fun h => absurd h hawake,
      fun h => absurd h hawake⟩
  | lose hup =>
    refine ⟨hl.retries, fun _ => rfl, hl.asleep, fun hnot => ?_⟩
    rw [hl.down hnot] at hup
    cases hup
  | comeUp hnews =>
    have hwaits : l.news ≠ [] := by simp [hnews]
    obtain ⟨htimers, hsound⟩ := hl.retries.reset
    exact ⟨hsound, hl.down, fun _ => htimers,
      fun hnot _ => (hl.spent hnot hwaits).reset hl.retries⟩
  | goDown hnews _ =>
    have hwaits : l.news ≠ [] := by simp [hnews]
    have hspent (hnot : l.started = false) := hl.spent hnot hwaits
    unfold goDown
    split
    · exact ⟨hl.retries.arm, hl.down, fun hnot => (hspent hnot).arm.timers,
        fun hnot _ => (hspent hnot).arm⟩
    · exact ⟨hl.retries, hl.down, hl.asleep, fun hnot _ => hspent hnot⟩
  | stop =>
    obtain ⟨hspent, hsound⟩ := hl.retries.stop
    exact ⟨hsound, fun _ => rfl, fun _ => hspent.timers, fun _ _ => hspent⟩

theorem Path.sound (h : Path moves l m) (hl : l.Sound) : m.Sound :=
  h.keeps (fun _ hl hstep => hl.step hstep) hl

/-! ## What the client takes the link for -/

/-- What the client will take the link for once every notice has had its turn. -/
def outlook (l : Line) : Bool := l.news.getLast?.getD (l.state = .connected)

/-- Once every notice has had its turn the client takes the link for what it is. -/
def Truthful (l : Line) : Prop := l.outlook = l.up

theorem outlook_told {up : Bool} {rest : List Bool} (h : l.news = up :: rest) :
    l.outlook = rest.getLast?.getD up := by
  unfold outlook
  rw [h, List.getLast?_cons]
  cases rest.getLast? <;> rfl

/-- Only a shutdown can make a client take the link for what it is not: when the last notice that
waits says that the link came up. -/
theorem Truthful.step (hl : l.Truthful) (hs : l.Sound) (h : Step l move m)
    (hmove : ∀ news, move = .stopped news → news.getLast? ≠ some true) : m.Truthful := by
  cases h with
  | queue _ | send _ _ => exact hl
  | start ok hnot =>
    cases ok with
    | true => simp [Truthful, outlook, Line.start, dial]
    | false =>
      have hdown := hs.down hnot
      unfold Truthful outlook at hl ⊢
      rw [hdown] at hl
      simp only [Line.start, dial]
      cases hlast : l.news.getLast? <;> simp_all
  | @retry number rest ok _ =>
    cases ok with
    | true => simp [Truthful, outlook, Line.retry, dial]
    | false =>
      have hstate : (l.state.after .started).after .failed = .connected ↔ l.state = .connected := by
        cases l.state <;> decide
      unfold Truthful outlook at hl ⊢
      simp only [Line.retry, dial]
      simpa [hstate] using hl
  | lose _ => simp [Truthful, outlook, Line.lose]
  | comeUp hnews =>
    rw [Truthful, outlook_told hnews] at hl
    simpa [Truthful, outlook, Line.comeUp] using hl
  | goDown hnews _ =>
    rw [Truthful, outlook_told hnews] at hl
    simpa [Truthful, outlook, Line.goDown] using hl
  | stop =>
    have hlast := hmove _ rfl
    unfold Truthful outlook
    simp only [Line.stop]
    cases h : l.news.getLast? with
    | none => rfl
    | some up => cases up <;> simp_all

theorem Truthful.path (hl : l.Truthful) (hs : l.Sound) (h : Path moves l m)
    (hmoves : ∀ news, .stopped news ∈ moves → news.getLast? ≠ some true) : m.Truthful := by
  have hboth : m.Sound ∧ m.Truthful := by
    refine h.keeps (P := fun l => l.Sound ∧ l.Truthful) (fun hmem hl hstep => ?_) ⟨hs, hl⟩
    exact ⟨hl.1.step hstep, hl.2.step hl.1 hstep fun news hstop => hmoves news (hstop ▸ hmem)⟩
  exact hboth.2

/-- Once no notice waits, a truthful client is connected if the link is up and only then. -/
theorem Truthful.connected_iff (hl : l.Truthful) (hnews : l.news = []) :
    l.state = .connected ↔ l.up = true := by
  rw [← hl, outlook, hnews]
  simp

/-! ## After a shutdown -/

/-- A client that is not started does not come to see the link in another way. -/
theorem outlook_step (hnot : l.started = false) (hs : l.Sound) (h : Step l move m)
    (hstart : ∀ ok, move ≠ .started ok) (hstop : ∀ news, move ≠ .stopped news) :
    m.started = false ∧ m.outlook = l.outlook := by
  cases h with
  | queue _ | send _ _ => exact ⟨hnot, rfl⟩
  | start ok _ => exact absurd rfl (hstart ok)
  | retry _ htimers =>
    rw [hs.asleep hnot] at htimers
    cases htimers
  | lose hup =>
    rw [hs.down hnot] at hup
    cases hup
  | comeUp hnews => exact ⟨hnot, by rw [outlook_told hnews]; simp [outlook, Line.comeUp]⟩
  | goDown hnews _ => exact ⟨hnot, by rw [outlook_told hnews]; simp [outlook, Line.goDown]⟩
  | stop => exact absurd rfl (hstop _)

/-- Once no notice waits, a client that was shut down is connected if the last notice that waited
then said that the link came up, and only then. The link is down. -/
theorem after_stop (hs : l.Sound) (h : Path moves l.stop m) (hstart : ∀ ok, .started ok ∉ moves)
    (hstop : ∀ news, .stopped news ∉ moves) (hnews : m.news = []) :
    m.up = false ∧ (m.state = .connected ↔ l.news.getLast? = some true) := by
  let P (k : Line) : Prop := k.Sound ∧ k.started = false ∧ k.outlook = l.stop.outlook
  have hstopped : P l.stop := ⟨hs.step .stop, rfl, rfl⟩
  obtain ⟨hsound, hnot, houtlook⟩ : P m := by
    refine h.keeps (fun hmem hk hstep => ?_) hstopped
    obtain ⟨hsound, hnot, houtlook⟩ := hk
    obtain ⟨hnot', houtlook'⟩ := outlook_step hnot hsound hstep
      (fun ok heq => hstart ok (heq ▸ hmem)) (fun news heq => hstop news (heq ▸ hmem))
    exact ⟨hsound.step hstep, hnot', houtlook'.trans houtlook⟩
  refine ⟨hsound.down hnot, ?_⟩
  have hlast : l.stop.outlook = true ↔ l.news.getLast? = some true := by
    unfold outlook
    simp only [Line.stop]
    cases l.news.getLast? <;> simp
  rw [← hlast, ← houtlook, outlook, hnews]
  simp

/-- A client that is shut down, while no notice waits that the link came up. -/
structure Still (l : Line) : Prop where
  sound : l.Sound
  started : l.started = false
  state : l.state = .disconnected
  sends : l.sends = false
  news : true ∉ l.news

/-- It stays disconnected, and what is to be sent stays. -/
theorem Still.step (hl : l.Still) (h : Step l move m) (hstart : ∀ ok, move ≠ .started ok) :
    m.Still ∧ (∀ message, move ≠ .sent message) ∧ l.queue <+: m.queue := by
  have hsound := hl.sound.step h
  cases h with
  | queue message =>
    exact ⟨⟨hsound, hl.started, hl.state, hl.sends, hl.news⟩, nofun, List.prefix_append _ _⟩
  | send hsends _ =>
    rw [hl.sends] at hsends
    cases hsends
  | start ok _ => exact absurd rfl (hstart ok)
  | retry _ htimers =>
    rw [hl.sound.asleep hl.started] at htimers
    cases htimers
  | lose hup =>
    rw [hl.sound.down hl.started] at hup
    cases hup
  | comeUp hnews => exact absurd (hnews ▸ List.mem_cons_self) hl.news
  | @goDown rest queue hnews hqueue =>
    have hrest : true ∉ rest := fun hmem => hl.news (hnews ▸ List.mem_cons_of_mem _ hmem)
    have hsame : queue = l.queue := by
      by_cases hne : queue = l.queue
      · exact hne
      · rw [hl.state] at hqueue
        cases (hqueue hne).2
    exact ⟨⟨hsound, hl.started, rfl, rfl, hrest⟩, nofun, hsame ▸ List.prefix_rfl⟩
  | stop => exact ⟨⟨hsound, rfl, rfl, rfl, hl.news⟩, nofun, List.prefix_rfl⟩

theorem Still.path (hl : l.Still) (h : Path moves l m) (hstart : ∀ ok, .started ok ∉ moves) :
    m.state = .disconnected ∧ (∀ message, .sent message ∉ moves) ∧ l.queue <+: m.queue := by
  induction h with
  | nil l => exact ⟨hl.state, fun _ => List.not_mem_nil, List.prefix_rfl⟩
  | @cons move _ _ _ _ hstep _ ih =>
    obtain ⟨hm, hsent, hqueue⟩ := hl.step hstep fun ok heq => hstart ok (heq ▸ List.mem_cons_self)
    obtain ⟨hstate, hnone, hmore⟩ := ih hm fun ok hmem => hstart ok (List.mem_cons_of_mem _ hmem)
    refine ⟨hstate, fun message hmem => ?_, hqueue.trans hmore⟩
    rcases List.mem_cons.mp hmem with heq | hlater
    · exact hsent message heq.symm
    · exact hnone message hlater

theorem still_stop (hs : l.Sound) (hnews : true ∉ l.news) : l.stop.Still :=
  ⟨hs.step .stop, rfl, rfl, rfl, hnews⟩

/-! ## Timers -/

/-- Whenever a client that is to connect again is disconnected, a timer waits for the next attempt.
-/
structure Patient (l : Line) : Prop where
  sound : l.Sound
  reconnects : l.reconnects = true
  unlimited : l.retries.reconnector.backoff.max? = none
  waits : l.started = true → l.state = .disconnected → l.retries.timers ≠ []

theorem Patient.step (hl : l.Patient) (h : Step l move m) (hstop : ∀ news, move ≠ .stopped news) :
    m.Patient := by
  have hsound := hl.sound.step h
  have harmed := Retries.timers_arm hl.sound.retries hl.unlimited
  cases h with
  | queue _ | send _ _ | lose _ => exact ⟨hsound, hl.reconnects, hl.unlimited, hl.waits⟩
  | start ok _ =>
    cases ok with
    | true => exact ⟨hsound, hl.reconnects, hl.unlimited, nofun⟩
    | false => exact ⟨hsound, hl.reconnects, Retries.max?_arm.trans hl.unlimited, fun _ _ => harmed⟩
  | retry _ htimers =>
    have hfired := (hl.sound.retries.fire htimers).2
    exact ⟨hsound, hl.reconnects, Retries.max?_arm.trans hl.unlimited,
      fun _ _ => Retries.timers_arm hfired hl.unlimited⟩
  | comeUp _ => exact ⟨hsound, hl.reconnects, hl.unlimited, nofun⟩
  | goDown _ _ =>
    unfold goDown at hsound ⊢
    rw [if_pos hl.reconnects] at hsound ⊢
    exact ⟨hsound, hl.reconnects, Retries.max?_arm.trans hl.unlimited, fun _ _ => harmed⟩
  | stop => exact absurd rfl (hstop _)

theorem Patient.path (hl : l.Patient) (h : Path moves l m)
    (hstop : ∀ news, .stopped news ∉ moves) : m.Patient :=
  h.keeps (fun hmem hl hstep => hl.step hstep fun news heq => hstop news (heq ▸ hmem)) hl

/-- Once there is to be no attempt any more, no timer is armed again. -/
theorem spent_step (hs : l.Sound) (hl : l.retries.Spent) (h : Step l move m) :
    m.retries.Spent := by
  cases h with
  | queue _ | send _ _ | lose _ => exact hl
  | start ok _ =>
    cases ok with
    | true => exact hl
    | false => exact hl.arm
  | retry _ htimers =>
    rw [hl.timers] at htimers
    cases htimers
  | comeUp _ => exact hl.reset hs.retries
  | goDown _ _ =>
    unfold goDown
    split
    · exact hl.arm
    · exact hl
  | stop => exact hs.retries.stop.1

theorem Path.spent (h : Path moves l m) (hs : l.Sound) (hl : l.retries.Spent) :
    m.retries.Spent := by
  have hboth : m.Sound ∧ m.retries.Spent := by
    refine h.keeps (P := fun l => l.Sound ∧ l.retries.Spent) (fun _ hl hstep => ?_) ⟨hs, hl⟩
    exact ⟨hl.1.step hstep, spent_step hl.1 hl.2 hstep⟩
  exact hboth.2

theorem Path.spent_of_stopped {news : List Bool} (h : Path moves l m) (hs : l.Sound)
    (hmem : .stopped news ∈ moves) : m.retries.Spent := by
  induction h with
  | nil _ => cases hmem
  | @cons move _ _ _ _ hstep hpath ih =>
    rcases List.mem_cons.mp hmem with rfl | hlater
    · cases hstep
      exact hpath.spent (hs.step .stop) hs.retries.stop.1
    · exact ih (hs.step hstep) hlater

/-- Until it is shut down such a client has a timer when it is disconnected, and then never. -/
theorem Patient.waits_iff (hl : l.Patient) (h : Path moves l m) (hstarted : m.started = true)
    (hstate : m.state = .disconnected) :
    m.retries.timers ≠ [] ↔ ∀ news, .stopped news ∉ moves := by
  constructor
  · intro hwaits news hmem
    exact hwaits (h.spent_of_stopped hl.sound hmem).timers
  · intro hstop
    exact (hl.path h hstop).waits hstarted hstate

/-! ## Where a client starts -/

def first (config : ClientConfig) : Line where
  reconnects := config.autoReconnect
  retries := { reconnector := { backoff := config.backoff } }

theorem sound_first (config : ClientConfig) : (first config).Sound :=
  ⟨rfl, fun _ => rfl, fun _ => rfl, fun _ hwaits => absurd rfl hwaits⟩

theorem truthful_first (config : ClientConfig) : (first config).Truthful := rfl

theorem patient_first {config : ClientConfig} (hauto : config.autoReconnect = true)
    (hmax : config.backoff.max? = none) : (first config).Patient :=
  ⟨sound_first config, hauto, hmax, nofun⟩

end Line

end ValueTree
