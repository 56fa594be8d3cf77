import ValueTree.Proofs.Session.Along

/-!
# What a client reports of its link

The state of a client follows the link by notices, and each waits for its turn. Once none waits the
state agrees with the link, unless the client was shut down while the last one that waited said that
the link came up: the client hears it all the same. A client that was never shut down has a timer
whenever it is disconnected, and one that was shut down once never has a timer again.
-/

namespace ValueTree

open Line

namespace Session

section

variable {s t : Session} {l m : Line} {pending : List (UInt32 × Completion)}

/-- Moves that led to the line of a client that is still there. -/
def Led (s : Session) (moves : List Move) (l : Line) : Prop :=
  ∃ first, s.line? = some first ∧ Path moves first l

theorem mem_news {jobs : List (Job LinkEvent)} :
    true ∈ jobs.filterMap Job.news? ↔ .own .connected ∈ jobs := by
  rw [List.mem_filterMap]
  constructor
  · rintro ⟨job, hmem, hjob⟩
    obtain rfl : job = .own .connected := by
      unfold Job.news? at hjob
      split at hjob <;> simp_all
    exact hmem
  · exact fun hmem => ⟨_, hmem, rfl⟩

theorem line?_of_client {seat : ClientSeat} (h : s.client = some seat) :
    s.line? = some (seat.client.line s.wire) := by
  rw [line?, h]
  rfl

theorem Stands.line? (h : s.Stands pending l) : s.line? = some l := by
  obtain ⟨seat, hseat, -, rfl⟩ := h
  exact line?_of_client hseat

theorem news_of_line? (h : s.line? = some l) :
    l.news = s.wire.agenda.tasks.filterMap Job.news? := by
  obtain ⟨seat, -, rfl⟩ := Option.map_eq_some_iff.mp h
  rfl

theorem queue_of_line? (h : s.line? = some l) : l.queue = s.wire.outbox.messages := by
  obtain ⟨seat, -, rfl⟩ := Option.map_eq_some_iff.mp h
  rfl

/-- A shutdown is one move. -/
theorem line?_shutdown (howned : s.owned?.isSome = true) (hl : s.line? = some l)
    (hm : (s.step (.client .shutdown)).2.line? = some m) : m = l.stop := by
  obtain ⟨c, hc⟩ := Option.isSome_iff_exists.mp howned
  obtain ⟨seat, hseat⟩ := Option.isSome_iff_exists.mp (Run.isSome_of_owned? hc)
  have hstep : (s.step (.client .shutdown)).2 =
      ((s.tendClient Tenure.hold).shutDown).tendClient Tenure.letGo := by
    change (Run.withClient _ (Run.carryOut Run.depthLimit) s).2 = _
    rw [Run.withClient, get_bind, hc]
    rfl
  have hstands : s.Stands seat.client.pending l := by
    rw [line?_of_client hseat] at hl
    cases hl
    exact .of_client hseat
  rw [hstep] at hm
  have hstopped := (line?_tendClient hm).symm.trans hstands.hold.shutDown.line?
  exact Option.some.inj hstopped

end

/-! ## The state -/

/-- What is true of the state that a client reports. -/
structure ReportsKept (start : Session) : Prop where
  /-- Whatever is asked of the session, the line of the client makes one move after another. No
  start and no shutdown is among them that no command asks for. -/
  path {inner outer : ClientCommand → Prop} {commands : List Command} {l : Line} :
    (∀ command, inner command → outer command) →
      (∀ command ∈ commands, command.Tame inner outer) → (start.steps commands).2.line? = some l →
        ∃ moves, start.Led moves l ∧ ∀ move ∈ moves, move.Within outer
  /-- Once no notice waits the client is connected if the link is up, and only then, unless it was
  shut down while the last notice that waited said that the link came up. -/
  agrees {moves : List Move} {l : Line} : start.Led moves l →
    (∀ news, .stopped news ∈ moves → news.getLast? ≠ some true) → l.news = [] →
      (l.state = .connected ↔ l.up = true)
  /-- After a shutdown it depends on that notice alone, until the client is started again: the link
  is down, and once no notice waits the client is connected if this was the last that waited
  then. -/
  stale {moves more : List Move} {l m : Line} : start.Led moves l → Path more l.stop m →
    (∀ ok, .started ok ∉ more) → (∀ news, .stopped news ∉ more) → m.news = [] →
      m.up = false ∧ (m.state = .connected ↔ l.news.getLast? = some true)
  /-- If no notice that the link came up waited, then the client stays disconnected and nothing is
  taken off the queue. -/
  still {moves more : List Move} {l m : Line} : start.Led moves l → true ∉ l.news →
    Path more l.stop m → (∀ ok, .started ok ∉ more) →
      m.state = .disconnected ∧ (∀ message, .sent message ∉ more) ∧ l.queue <+: m.queue
  /-- Without a shutdown the state agrees with the link whenever no task is left. -/
  idle {commands : List Command} {seat : ClientSeat} :
    (∀ command ∈ commands, command.Tame (· ≠ .shutdown) (· ≠ .shutdown)) →
      (start.steps commands).2.client = some seat →
        (start.steps commands).2.wire.agenda.tasks = [] →
          (seat.client.connection = .connected ↔
            (start.steps commands).2.wire.link.connected = true)
  /-- A shutdown while no notice that the link came up waits, and whatever is asked then, as long as
  it is no start. -/
  quiet {before after : List Command} {s t : Session} {seat : ClientSeat} :
    (start.steps before).2 = s → (s.step (.client .shutdown)).2 = t →
      (∀ command ∈ before, command.Tame (· ≠ .start) fun _ => True) →
        (∀ command ∈ after, command.Tame (· ≠ .start) (· ≠ .start)) →
          s.owned?.isSome = true → Job.own .connected ∉ s.wire.agenda.tasks →
            (t.steps after).2.client = some seat →
              seat.client.connection = .disconnected ∧
                t.wire.outbox.messages <+: (t.steps after).2.wire.outbox.messages

section

variable {files : FileTree} {config : ClientConfig} {commands before after : List Command}
  {inner outer : ClientCommand → Prop} {moves : List Move} {s t : Session} {l m : Line}

theorem tidy_steps (hallowed : ∀ command, inner command → outer command)
    (h : ∀ command ∈ commands, command.Tame inner outer) :
    (((fresh files).seatClient config).steps commands).2.Tidy inner :=
  (along_steps hallowed h _).tidy (tidy_start files config)

/-- What a run makes of the line that a client starts with. -/
theorem path_start (hallowed : ∀ command, inner command → outer command)
    (h : ∀ command ∈ commands, command.Tame inner outer)
    (hl : (((fresh files).seatClient config).steps commands).2.line? = some l) :
    ∃ moves, Path moves (Line.first config) l ∧ ∀ move ∈ moves, move.Within outer := by
  have halong := along_steps hallowed h ((fresh files).seatClient config)
  obtain ⟨first, moves, hfirst, hpath, hwithin⟩ := halong.moves (tidy_start files config) hl
  cases hfirst
  exact ⟨moves, hpath, hwithin⟩

theorem path_of_led (h : ((fresh files).seatClient config).Led moves l) :
    Path moves (Line.first config) l := by
  obtain ⟨first, hfirst, hpath⟩ := h
  cases hfirst
  exact hpath

/-- A run, a shutdown and another run: what the last one makes of the line after the shutdown. -/
theorem path_shutdown (h : ∀ command ∈ before, command.Tame inner fun _ => True)
    (h' : ∀ command ∈ after, command.Tame inner outer)
    (hallowed : ∀ command, inner command → outer command)
    (hs : (((fresh files).seatClient config).steps before).2 = s)
    (ht : (s.step (.client .shutdown)).2 = t) (howned : s.owned?.isSome = true)
    (hm : (t.steps after).2.line? = some m) :
    ∃ l moves, s.line? = some l ∧ l.Sound ∧ t.line? = some l.stop ∧ Path moves l.stop m ∧
      ∀ move ∈ moves, move.Within outer := by
  subst hs ht
  have htame : (Command.client .shutdown).Tame inner fun _ => True := .client trivial
  have hstop := along_step (fun _ _ => trivial) htame
    (((fresh files).seatClient config).steps before).2
  have htidy := hstop.tidy (tidy_steps (fun _ _ => trivial) h)
  obtain ⟨stopped, moves, hstopped, hpath, hwithin⟩ := (along_steps hallowed h' _).moves htidy hm
  obtain ⟨c, hc⟩ := Option.isSome_iff_exists.mp howned
  obtain ⟨seat, hseat⟩ := Option.isSome_iff_exists.mp (Run.isSome_of_owned? hc)
  have hl := line?_of_client hseat
  obtain rfl := line?_shutdown howned hl hstopped
  obtain ⟨_, hfirst, _⟩ := path_start (fun _ _ => trivial) h hl
  exact ⟨_, moves, hl, hfirst.sound (sound_first config), hstopped, hpath, hwithin⟩

end

theorem reportsKept (files : FileTree) (config : ClientConfig) :
    ReportsKept ((fresh files).seatClient config) where
  path hallowed htame hl := by
    obtain ⟨moves, hpath, hwithin⟩ := path_start hallowed htame hl
    exact ⟨moves, ⟨_, rfl, hpath⟩, hwithin⟩
  agrees hled htimely hnews :=
    ((truthful_first config).path (sound_first config) (path_of_led hled) htimely).connected_iff
      hnews
  stale hled hmore hstart hstop hnews :=
    after_stop ((path_of_led hled).sound (sound_first config)) hmore hstart hstop hnews
  still hled hnews hmore hstart :=
    (still_stop ((path_of_led hled).sound (sound_first config)) hnews).path hmore hstart
  idle {commands seat} htame hseat htasks := by
    obtain ⟨moves, hpath, hwithin⟩ := path_start (fun _ => id) htame (line?_of_client hseat)
    have htruthful := (truthful_first config).path (sound_first config) hpath
      fun news hmem => absurd rfl (hwithin _ hmem)
    exact htruthful.connected_iff (by simp [Client.line, htasks])
  quiet {before after s t seat} hs ht hbefore hafter howned hnews hseat := by
    obtain ⟨l, moves, hl, hsound, hstopped, hpath, hwithin⟩ :=
      path_shutdown hbefore hafter (fun _ => id) hs ht howned (line?_of_client hseat)
    have hwaits : true ∉ l.news := news_of_line? hl ▸ mt mem_news.mp hnews
    obtain ⟨hstate, -, hqueue⟩ := (still_stop hsound hwaits).path hpath
      fun ok hmem => absurd rfl (hwithin _ hmem)
    rw [queue_of_line? hstopped] at hqueue
    exact ⟨hstate, hqueue⟩

/-- A client that is shut down before it hears that the link came up. -/
example :
    let s := (((fresh {}).seatClient { app := "log" }).steps
      [.client .start, .client .shutdown, .wire .run]).2
    s.line?.map (fun l => (l.state, l.up, l.news)) = some (.connected, false, []) := by
  decide +kernel

/-! ## The timers -/

/-- What is true of the timers of a client that is to connect again as often as it takes. -/
structure RetriesKept (start : Session) : Prop where
  /-- Whatever is asked of the session, the line of the client makes one move after another. If it
  is started and disconnected, a timer waits for the next attempt unless it was shut down before.
  Every start and every timer that fired was an attempt. -/
  path {inner outer : ClientCommand → Prop} {commands : List Command} {l : Line} :
    (∀ command, inner command → outer command) →
      (∀ command ∈ commands, command.Tame inner outer) → (start.steps commands).2.line? = some l →
        ∃ moves, start.Led moves l ∧ (∀ move ∈ moves, move.Within outer) ∧
          (l.started = true → l.state = .disconnected →
            (l.retries.timers ≠ [] ↔ ∀ news, .stopped news ∉ moves)) ∧
          l.attempts = moves.countP (·.attempts)
  /-- Without a shutdown a timer waits whenever a client is started and disconnected. -/
  armed {commands : List Command} {seat : ClientSeat} :
    (∀ command ∈ commands, command.Tame (· ≠ .shutdown) (· ≠ .shutdown)) →
      (start.steps commands).2.client = some seat → seat.client.started = true →
        seat.client.connection = .disconnected →
          ∃ timer ∈ (start.steps commands).2.wire.agenda.timers, timer.task = .retry
  /-- After a shutdown no timer waits any more, whatever is asked then. -/
  never {before after : List Command} {s t : Session} {seat : ClientSeat} :
    (start.steps before).2 = s → (s.step (.client .shutdown)).2 = t →
      (∀ command ∈ before ++ after, command.Tame (fun _ => True) fun _ => True) →
        s.owned?.isSome = true → (t.steps after).2.client = some seat →
          (t.steps after).2.wire.agenda.timers = []

/-- A client that is to connect again as often as it takes does so until it is shut down, and never
again. -/
theorem retriesKept (files : FileTree) (config : ClientConfig) :
    RetriesKept ((fresh files).seatClient { config with
      autoReconnect := true
      backoff := { config.backoff with max? := none } }) where
  path {inner outer commands l} hallowed htame hl := by
    obtain ⟨moves, hpath, hwithin⟩ := path_start hallowed htame hl
    have hattempts := hpath.attempts
    exact ⟨moves, ⟨_, rfl, hpath⟩, hwithin, (patient_first rfl rfl).waits_iff hpath,
      hattempts.trans (Nat.zero_add _)⟩
  armed {commands seat} htame hseat hstarted hstate := by
    obtain ⟨moves, hpath, hwithin⟩ := path_start (fun _ => id) htame (line?_of_client hseat)
    have hpatient := (patient_first rfl rfl).path hpath fun news hmem => absurd rfl (hwithin _ hmem)
    have hwaits := hpatient.waits hstarted hstate
    obtain ⟨number, hnumber⟩ := List.exists_mem_of_ne_nil _ hwaits
    obtain ⟨timer, htimer, -⟩ := List.mem_map.mp hnumber
    exact ⟨timer, htimer, (tidy_steps (fun _ => id) htame).wire.timers timer htimer⟩
  never {before after s t seat} hs ht htame howned hseat := by
    obtain ⟨l, moves, -, hsound, -, hpath, -⟩ := path_shutdown
      (fun command hmem => htame command (List.mem_append_left _ hmem))
      (fun command hmem => htame command (List.mem_append_right _ hmem)) (fun _ => id) hs ht howned
      (line?_of_client hseat)
    have hspent := hpath.spent (hsound.step .stop) hsound.retries.stop.1
    exact List.map_eq_nil_iff.mp hspent.timers

/-- A client that was shut down and is started while the authority cannot be reached. -/
example :
    let s := (((fresh {}).seatClient { app := "log" }).steps
      [.client .start, .wire .run, .client .shutdown, .wire (.reachable false), .client .start]).2
    s.line?.map (fun l => (l.started, l.state, l.retries.timers)) =
      some (true, .disconnected, []) := by
  decide +kernel

end Session

end ValueTree
