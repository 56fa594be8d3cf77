import ValueTree.Proofs.Session.Trail
import ValueTree.Proofs.Sync.Line

/-!
# The line of a session

Whatever is asked of a session with a client, the line of the client makes one move after another.
Only commands that bring the link itself up or down, past the client, are left out.
-/

namespace ValueTree

/-! ## What a session shows of the connection -/

/-- The notice that a job has for the client: whether the link came up or went down. -/
def Job.news? : Job LinkEvent → Option Bool
  | .own .connected => some true
  | .own .disconnected => some false
  | _ => none

def Wire.retries (w : Wire LinkEvent) : Retries where
  reconnector := w.reconnector
  timers := w.agenda.timers.map (·.number)
  nextTimer := w.agenda.nextTimer

def Client.line (c : Client Completion) (w : Wire LinkEvent) : Line where
  state := c.connection
  started := c.started
  reconnects := c.config.autoReconnect
  up := w.link.connected
  attempts := w.link.attempts
  news := w.agenda.tasks.filterMap Job.news?
  sends := w.outbox.connected
  queue := w.outbox.messages
  retries := w.retries

def Session.line? (s : Session) : Option Line := s.client.map fun seat => seat.client.line s.wire

namespace Client

variable (c : Client Completion) (w : Wire LinkEvent)

theorem line_postDrain : c.line { w with agenda := w.agenda.post .drain } = c.line w := by
  have hnews : (w.agenda.tasks ++ [Job.drain]).filterMap Job.news? =
      w.agenda.tasks.filterMap Job.news? := by
    rw [List.filterMap_append]
    exact List.append_nil _
  simp only [line, Agenda.post, hnews, Wire.retries]

theorem line_scheduleDrain : c.line w.scheduleDrain = c.line w := by
  unfold Wire.scheduleDrain
  split
  · exact c.line_postDrain w
  · rfl

theorem line_push (message : Message) :
    c.line (w.push message) = { c.line w with queue := w.outbox.messages ++ [message] } := by
  unfold Wire.push
  dsimp only
  split
  · rw [line_scheduleDrain]
    rfl
  · rfl

theorem line_pushAll (messages : List Message) :
    c.line (messages.foldl Wire.push w) =
      { c.line w with queue := w.outbox.messages ++ messages } := by
  induction messages generalizing w with
  | nil => simp [line]
  | cons message rest ih =>
    rw [List.foldl_cons, ih, line_push, Wire.messages_push, List.append_assoc,
      List.singleton_append]

theorem line_setConnected (connected : Bool) :
    c.line (w.setConnected connected) = { c.line w with sends := connected } := by
  unfold Wire.setConnected
  dsimp only
  split
  · rw [line_scheduleDrain]
    rfl
  · rfl

theorem line_post (event : LinkEvent) : c.line (w.post event) =
    { c.line w with news := (c.line w).news ++ (Job.news? (.own event)).toList } := by
  have hnews : (w.agenda.tasks ++ [Job.own event]).filterMap Job.news? =
      w.agenda.tasks.filterMap Job.news? ++ (Job.news? (.own event)).toList := by
    rw [List.filterMap_append]
    cases event <;> rfl
  simp only [line, Wire.post, Agenda.post, hnews, Wire.retries]

theorem line_arm : c.line w.arm = { c.line w with retries := w.retries.arm } := by
  cases hdelay : w.reconnector.delay? with
  | none =>
    have hsame : w.retries.arm = w.retries := by simp only [Retries.arm, Wire.retries, hdelay]
    simp only [Wire.arm, hdelay, hsame]
    rfl
  | some delay =>
    simp only [Wire.arm, Retries.arm, Wire.retries, hdelay, line, Agenda.arm, List.map_append,
      List.map_cons, List.map_nil]

/-- The timer that waits is taken away, whatever becomes of the reconnector. -/
theorem line_cancelRetry (reconnector : Reconnector) :
    c.line { w.cancelRetry with reconnector } =
      { c.line w with retries := { w.retries.disarm with reconnector } } := by
  cases htimer : w.reconnector.timer with
  | none => simp only [Wire.cancelRetry, Retries.disarm, Wire.retries, htimer, line]
  | some number =>
    simp only [Wire.cancelRetry, Retries.disarm, Wire.retries, htimer, line, Agenda.cancel,
      List.filter_map]
    rfl

theorem line_drain_of_some {message : Message} {rest : List Message}
    (hconnected : w.outbox.connected = true) (hmessages : w.outbox.messages = message :: rest) :
    c.line w.drain = { c.line w with queue := rest } := by
  have htake : w.outbox.take = (some message, { w.outbox with messages := rest }) := by
    simp only [Outbox.take, hconnected, hmessages]
  let sent : Wire LinkEvent := { w with
    outbox := { w.outbox with messages := rest }
    link := w.link.sendMessage w.framing message }
  have hdrain : w.drain = { sent with agenda := w.agenda.post .drain } := by
    simp only [Wire.drain, htake, sent]
  rw [hdrain]
  refine (c.line_postDrain sent).trans ?_
  simp only [line, sent, Link.connected_sendMessage, Link.attempts_sendMessage, Wire.retries]

theorem line_drain_of_none (h : w.outbox.take.1 = none) : c.line w.drain = c.line w := by
  have htake : w.outbox.take = (none, { w.outbox with draining := false }) := by
    unfold Outbox.take at h ⊢
    split <;> simp_all
  simp only [Wire.drain, htake]
  rfl

/-- A job that has no notice for the client is taken off the agenda. -/
theorem line_withTasks {job : Job LinkEvent} {rest : List (Job LinkEvent)}
    (htasks : w.agenda.tasks = job :: rest) (hjob : job.news? = none) :
    c.line (w.withTasks rest) = c.line w := by
  simp only [line, Wire.withTasks, htasks, List.filterMap_cons_none hjob, Wire.retries]

end Client

/-! ## What may be asked -/

/-- Commands that leave the link to the client. Of the commands to the client itself those are
carried out that are allowed; callbacks may have others allowed. -/
inductive Command.Tame (inner : ClientCommand → Prop) : (ClientCommand → Prop) → Command → Prop
  | invalid {outer} (fault : Id.Fault) : Tame inner outer (.invalid fault)
  | query {outer} (query : Query) : Tame inner outer (.query query)
  | change {outer} (change : Change) : Tame inner outer (.change change)
  | observe {outer} {name : String} {only : Option Id} {reaction : List Command} {limit : Nat} :
    (∀ command ∈ reaction, command.Tame inner inner) →
      Tame inner outer (.observe name only reaction limit)
  | unobserve {outer} (name : String) : Tame inner outer (.unobserve name)
  | fragment {outer} (command : FragmentCommand) (text : String) :
    Tame inner outer (.fragment command text)
  | loader {outer} (command : LoaderCommand) : Tame inner outer (.loader command)
  | receiver {outer} (command : ReceiverCommand) : Tame inner outer (.receiver command)
  | request {outer} {request : Request} {tag : String} {reaction : List Command} {limit : Nat} :
    (∀ command ∈ reaction, command.Tame inner inner) →
      Tame inner outer (.request request tag reaction limit)
  | client {outer} {command : ClientCommand} : outer command → Tame inner outer (.client command)
  | wire {outer} {command : WireCommand} : command ≠ .connect →
    command ≠ .close → Tame inner outer (.wire command)

variable {inner outer : ClientCommand → Prop} {s t u : Session} {α β ε : Type}

def Listener.Tame (inner : ClientCommand → Prop) : Listener → Prop
  | .observer o => ∀ command ∈ o.reaction, command.Tame inner inner
  | .client => True
  | .loader _ => True

def Completion.Tame (inner : ClientCommand → Prop) (completion : Completion) : Prop :=
  ∀ command ∈ completion.reaction, command.Tame inner inner

def Callback.Tame (inner : ClientCommand → Prop) : Callback → Prop
  | .react _ reaction _ => ∀ command ∈ reaction, command.Tame inner inner
  | .trigger _ => True

/-- Only timers bring attempts to connect, and they bring nothing else. -/
structure Wire.Tidy (w : Wire LinkEvent) : Prop where
  calm : .retry ∉ w.agenda.tasks
  timers : ∀ timer ∈ w.agenda.timers, timer.task = .retry

namespace Wire.Tidy

variable {w v : Wire LinkEvent}

theorem agenda (h : w.Tidy) (heq : v.agenda = w.agenda) : v.Tidy :=
  ⟨heq ▸ h.calm, heq ▸ h.timers⟩

theorem apart (h : w.Tidy) (hv : w.Apart v) : v.Tidy where
  calm hretry := by
    rcases hv.tasks hretry with hold | ⟨task, hown⟩
    · exact h.calm hold
    · cases hown
  timers timer htimer := (hv.timers htimer).elim (h.timers timer) id

theorem postDrain (h : w.Tidy) : { w with agenda := w.agenda.post .drain }.Tidy :=
  ⟨by simpa [Agenda.post] using h.calm, h.timers⟩

theorem scheduleDrain (h : w.Tidy) : w.scheduleDrain.Tidy := by
  unfold Wire.scheduleDrain
  split
  · exact h.postDrain.agenda rfl
  · exact h

theorem push (h : w.Tidy) (message : Message) : (w.push message).Tidy := by
  have hpushed : { w with outbox := w.outbox.push message }.Tidy := h.agenda rfl
  unfold Wire.push
  dsimp only
  split
  · exact hpushed.scheduleDrain
  · exact hpushed

theorem pushAll (h : w.Tidy) (messages : List Message) : (messages.foldl Wire.push w).Tidy := by
  induction messages generalizing w with
  | nil => exact h
  | cons message rest ih => exact ih (h.push message)

theorem setConnected (h : w.Tidy) (connected : Bool) : (w.setConnected connected).Tidy := by
  have hset : { w with outbox := { w.outbox with connected } }.Tidy := h.agenda rfl
  unfold Wire.setConnected
  dsimp only
  split
  · exact hset.scheduleDrain
  · exact hset

theorem drain (h : w.Tidy) : w.drain.Tidy := by
  unfold Wire.drain
  split
  · exact h.agenda rfl
  · exact h.postDrain.agenda rfl

end Wire.Tidy

/-- Whatever waits to be called is tame. -/
structure Session.Tidy (inner : ClientCommand → Prop) (s : Session) : Prop where
  listeners : ∀ entry ∈ s.listeners.entries, entry.2.Tame inner
  pending {seat : ClientSeat} : s.client = some seat →
    ∀ entry ∈ seat.client.pending, entry.2.Tame inner
  wire : s.wire.Tidy

/-! ## From one session to another -/

/-- Whoever takes hold of the client or lets go of it, its line is the same if it stays. -/
theorem Session.line?_tendClient {f : Tenure → Tenure} {l : Line}
    (h : (s.tendClient f).line? = some l) : s.line? = some l := by
  unfold tendClient at h
  split at h
  · exact h
  · dsimp only at h
    split at h
    · cases h
    · rw [← h, line?, ‹s.client = _›]
      rfl

def Line.Move.Within (outer : ClientCommand → Prop) : Line.Move → Prop
  | .started _ => outer .start
  | .stopped _ => outer .shutdown
  | _ => True

theorem Line.Move.within_nil : ∀ move ∈ ([] : List Line.Move), move.Within outer :=
  fun _ hmem => absurd hmem List.not_mem_nil

/-- The client may be gone; if it is still there, its line made some moves. -/
structure Along (inner outer : ClientCommand → Prop) (s t : Session) : Prop where
  tidy : s.Tidy inner → t.Tidy inner
  moves : s.Tidy inner → ∀ {m : Line}, t.line? = some m → ∃ l moves,
    s.line? = some l ∧ Line.Path moves l m ∧ ∀ move ∈ moves, move.Within outer

namespace Along

theorem refl (s : Session) : Along inner outer s s where
  tidy := id
  moves _ m hm := ⟨m, [], hm, .nil m, Line.Move.within_nil⟩

theorem trans (h : Along inner outer s t) (h' : Along inner outer t u) :
    Along inner outer s u where
  tidy hs := h'.tidy (h.tidy hs)
  moves hs n hn := by
    obtain ⟨m, more, hm, hmore, hwithin'⟩ := h'.moves (h.tidy hs) hn
    obtain ⟨l, moves, hl, hmoves, hwithin⟩ := h.moves hs hm
    refine ⟨l, moves ++ more, hl, hmoves.append hmore, fun move hmem => ?_⟩
    exact (List.mem_append.mp hmem).elim (hwithin move) (hwithin' move)

theorem mono (hallowed : ∀ command, inner command → outer command)
    (h : Along inner inner s t) : Along inner outer s t where
  tidy := h.tidy
  moves hs m hm := by
    obtain ⟨l, moves, hl, hmoves, hwithin⟩ := h.moves hs hm
    refine ⟨l, moves, hl, hmoves, fun move hmem => ?_⟩
    have := hwithin move hmem
    cases move <;> first | exact hallowed _ this | trivial

/-- Neither the client nor the wire changes. -/
theorem aside (hclient : t.client = s.client) (hwire : t.wire = s.wire)
    (hlisteners : ∀ entry ∈ t.listeners.entries,
      entry ∈ s.listeners.entries ∨ entry.2.Tame inner) : Along inner outer s t where
  tidy hs :=
    { listeners := fun entry hmem => (hlisteners entry hmem).elim (hs.listeners entry) id
      pending := fun ht => hs.pending (hclient ▸ ht)
      wire := hwire ▸ hs.wire }
  moves _ m hm := by
    refine ⟨m, [], ?_, .nil m, Line.Move.within_nil⟩
    rwa [Session.line?, hclient, hwire] at hm

/-- The client stays where it is, and its line made these moves. -/
theorem seated {seat after : ClientSeat} (hs : s.client = some seat) (ht : t.client = some after)
    (hlisteners : t.listeners = s.listeners)
    (hpending : ∀ entry ∈ after.client.pending,
      entry ∈ seat.client.pending ∨ entry.2.Tame inner)
    (hwire : s.wire.Tidy → t.wire.Tidy)
    (hmoves : s.wire.Tidy → ∃ moves,
      Line.Path moves (seat.client.line s.wire) (after.client.line t.wire) ∧
        ∀ move ∈ moves, move.Within outer) : Along inner outer s t where
  tidy htidy :=
    { listeners := hlisteners ▸ htidy.listeners
      pending := fun {now} hnow entry hmem => by
        cases ht.symm.trans hnow
        exact (hpending entry hmem).elim (htidy.pending hs entry) id
      wire := hwire htidy.wire }
  moves htidy m hm := by
    rw [Session.line?, ht] at hm
    cases hm
    obtain ⟨moves, hpath, hwithin⟩ := hmoves htidy.wire
    exact ⟨_, moves, by rw [Session.line?, hs]; rfl, hpath, hwithin⟩

/-- Without a client there is no line. -/
theorem unseated (ht : t.client = none) (hlisteners : t.listeners = s.listeners)
    (hwire : s.wire.Tidy → t.wire.Tidy) : Along inner outer s t where
  tidy hs :=
    { listeners := hlisteners ▸ hs.listeners
      pending := fun hnow => by
        cases ht.symm.trans hnow
      wire := hwire hs.wire }
  moves _ m hm := by
    rw [Session.line?, ht] at hm
    cases hm

theorem adjust {f : Client Completion → Client Completion}
    (hline : ∀ c w, (f c).line w = c.line w)
    (hpending : ∀ c, ∀ entry ∈ (f c).pending, entry ∈ c.pending ∨ entry.2.Tame inner) :
    Along inner outer s (s.adjustClient f) := by
  cases hs : s.client with
  | none =>
    have ht : (s.adjustClient f).client = none := by rw [Session.adjustClient, hs]; rfl
    exact .unseated ht rfl id
  | some seat =>
    refine .seated hs (Course.client_adjustClient hs f) rfl (hpending _) id fun _ =>
      ⟨[], ?_, Line.Move.within_nil⟩
    exact (hline seat.client s.wire).symm ▸ .nil _

/-- Something becomes of the wire, and what that is to a client does not depend on which client it
is. -/
theorem rewire {v : Wire LinkEvent} (hwire : s.wire.Tidy → v.Tidy)
    (hmoves : s.client.isSome = true → s.wire.Tidy → ∃ moves,
      (∀ c : Client Completion, Line.Path moves (c.line s.wire) (c.line v)) ∧
        ∀ move ∈ moves, move.Within outer) : Along inner outer s { s with wire := v } := by
  cases hs : s.client with
  | none => exact .unseated rfl rfl hwire
  | some seat =>
    refine .seated hs rfl rfl (fun _ => Or.inl) hwire fun htidy => ?_
    obtain ⟨moves, hpath, hwithin⟩ := hmoves (by rw [hs]; rfl) htidy
    exact ⟨moves, hpath _, hwithin⟩

/-- The wire changes in a way that the client does not see. -/
theorem unseen {v : Wire LinkEvent} (hwire : s.wire.Tidy → v.Tidy)
    (hline : ∀ c : Client Completion, c.line v = c.line s.wire) :
    Along inner outer s { s with wire := v } :=
  .rewire hwire fun _ _ => ⟨[], fun c => (hline c).symm ▸ .nil _, Line.Move.within_nil⟩

theorem push (message : Message) :
    Along inner outer s { s with wire := s.wire.push message } := by
  refine .rewire (·.push message) fun _ _ => ⟨[.queued message], fun c => ?_, fun move hmem => ?_⟩
  · rw [Client.line_push]
    exact .single (.queue message)
  · rw [List.mem_singleton.mp hmem]
    trivial

theorem tend (f : Tenure → Tenure) : Along inner outer s (s.tendClient f) where
  tidy hs :=
    { listeners := fun entry hmem => by
        unfold Session.tendClient at hmem
        split at hmem
        · exact hs.listeners entry hmem
        · dsimp only at hmem
          split at hmem
          · exact hs.listeners entry (List.mem_filter.mp hmem).1
          · exact hs.listeners entry hmem
      pending := fun {after} hafter => by
        obtain ⟨seat, hseat, hsame⟩ := Course.client_tendClient hafter
        rw [hsame]
        exact hs.pending hseat
      wire := hs.wire.apart (s.apart_tendClient f) }
  moves _ m hm := ⟨m, [], Session.line?_tendClient hm, .nil m, Line.Move.within_nil⟩

end Along

/-! ## Attempts to connect -/

/-- The wire after an attempt to connect. -/
def Wire.dialled (w : Wire LinkEvent) : Wire LinkEvent :=
  let tried := { w with link := w.link.connect.2 }
  if w.link.reachable then tried.post .connected else tried

theorem Wire.Tidy.dialled {w : Wire LinkEvent} (h : w.Tidy) : w.dialled.Tidy := by
  have htried : { w with link := w.link.connect.2 }.Tidy := h.agenda rfl
  unfold Wire.dialled
  dsimp only
  split
  · exact htried.apart (.post _ _)
  · exact htried

theorem Wire.retries_dialled (w : Wire LinkEvent) : w.dialled.retries = w.retries := by
  unfold dialled
  dsimp only
  split <;> rfl

namespace Client

variable (c : Client Completion) (w : Wire LinkEvent)

theorem line_dialled : c.line w.dialled = (c.line w).dial w.link.reachable := by
  unfold Wire.dialled
  cases hreachable : w.link.reachable with
  | true =>
    rw [if_pos rfl, line_post]
    simp [line, Line.dial, Link.connect, hreachable, Job.news?, Wire.retries]
  | false =>
    rw [if_neg Bool.false_ne_true]
    simp [line, Line.dial, Link.connect, hreachable, Wire.retries]

theorem line_attempted (attempt : Attempt) :
    (c.attempted attempt).line w = { c.line w with state := c.connection.after attempt } := by
  cases attempt
  all_goals
    unfold attempted ConnectionState.after
    dsimp only
    split <;> rfl

theorem pending_attempted (attempt : Attempt) : (c.attempted attempt).pending = c.pending := by
  cases attempt
  all_goals
    unfold attempted
    dsimp only
    split <;> rfl

/-- The client after an attempt to connect again. -/
def retried (ok : Bool) : Client Completion :=
  if ok then c.attempted .started else (c.attempted .started).attempted .failed

theorem pending_retried (ok : Bool) : (c.retried ok).pending = c.pending := by
  cases ok <;> simp [retried, pending_attempted]

theorem line_retried (ok : Bool) : (c.retried ok).line w =
    { c.line w with
      state :=
        if ok then c.connection.after .started
        else (c.connection.after .started).after .failed } := by
  have hstarted : (c.attempted .started).connection = c.connection.after .started :=
    congrArg Line.state (c.line_attempted w .started)
  cases ok with
  | true => exact c.line_attempted w .started
  | false =>
    have hfailed := (c.attempted .started).line_attempted w .failed
    rw [hstarted] at hfailed
    exact hfailed.trans (by rw [c.line_attempted w .started]; rfl)

end Client

/-! ## Where a client stands -/

/-- A client with these requests under way and with this line. -/
def Session.Stands (s : Session) (pending : List (UInt32 × Completion)) (l : Line) : Prop :=
  ∃ seat, s.client = some seat ∧ seat.client.pending = pending ∧ seat.client.line s.wire = l

/-- The same listeners, and a wire that is as tidy. -/
structure Session.Neat (s t : Session) : Prop where
  listeners : t.listeners = s.listeners
  wire : s.wire.Tidy → t.wire.Tidy

theorem Session.Neat.trans (h : s.Neat t) (h' : t.Neat u) : s.Neat u where
  listeners := h'.listeners.trans h.listeners
  wire hs := h'.wire (h.wire hs)

variable {pending : List (UInt32 × Completion)} {l m : Line}

theorem Along.step (move : Line.Move) (hs : s.Stands pending l) (ht : t.Stands pending m)
    (hneat : s.Neat t) (hstep : l.Step move m) (hwithin : move.Within outer) :
    Along inner outer s t := by
  obtain ⟨seat, hseat, rfl, rfl⟩ := hs
  obtain ⟨after, hafter, hpending, rfl⟩ := ht
  refine .seated hseat hafter hneat.listeners (fun entry hmem => Or.inl (hpending ▸ hmem))
    hneat.wire fun _ => ⟨[move], .single hstep, fun other hmem => ?_⟩
  exact List.mem_singleton.mp hmem ▸ hwithin

namespace Session.Stands

theorem of_client {seat : ClientSeat} (h : s.client = some seat) :
    s.Stands seat.client.pending (seat.client.line s.wire) := ⟨seat, h, rfl, rfl⟩

/-- The client is changed, and the wire with it. -/
theorem turn {f : Client Completion → Client Completion} {v : Wire LinkEvent}
    (h : s.Stands pending l) (hpending : ∀ c, (f c).pending = c.pending)
    (hline : ∀ c : Client Completion, c.line s.wire = l → (f c).line v = m) :
    { s.adjustClient f with wire := v }.Stands pending m := by
  obtain ⟨seat, hseat, rfl, hl⟩ := h
  exact ⟨_, Course.client_adjustClient hseat f, hpending _, hline _ hl⟩

theorem rewire {v : Wire LinkEvent} (h : s.Stands pending l)
    (hline : ∀ c : Client Completion, c.line s.wire = l → c.line v = m) :
    { s with wire := v }.Stands pending m := by
  obtain ⟨seat, hseat, hpending, hl⟩ := h
  exact ⟨seat, hseat, hpending, hline _ hl⟩

theorem hold (h : s.Stands pending l) : (s.tendClient Tenure.hold).Stands pending l := by
  obtain ⟨seat, hseat, hpending, hl⟩ := h
  have hstays : seat.tenure.hold.isOver = false := by simp [Tenure.hold, Tenure.isOver]
  refine ⟨_, Course.client_hold hseat, hpending, ?_⟩
  simpa [Session.tendClient, hseat, hstays] using hl

end Session.Stands

/-! ## Acts of a client -/

namespace Session

variable (s)

theorem neat_adjust (f : Client Completion → Client Completion) {v : Wire LinkEvent}
    (h : s.wire.Tidy → v.Tidy) : s.Neat { s.adjustClient f with wire := v } := ⟨rfl, h⟩

theorem neat_hold : s.Neat (s.tendClient Tenure.hold) where
  listeners := by
    unfold tendClient
    split
    · rfl
    · rename_i seat _
      have hstays : seat.tenure.hold.isOver = false := by simp [Tenure.hold, Tenure.isOver]
      simp [hstays]
  wire h := h.apart (s.apart_tendClient _)

theorem neat_comeUp : s.Neat s.comeUp :=
  ⟨rfl, fun h => (h.apart (.connectionUp _)).setConnected true⟩

theorem neat_goDown : s.Neat s.goDown := ⟨rfl, fun h => h.setConnected false⟩

theorem neat_renew (c : Client Completion) : s.Neat (s.renew c) := by
  have hwire (h : s.wire.Tidy) : ((c.renewal s.store).foldl Wire.push s.wire.clear).Tidy := by
    have hcleared : s.wire.clear.Tidy := h.agenda rfl
    exact hcleared.pushAll _
  unfold renew
  dsimp only
  split <;> exact ⟨rfl, hwire⟩

theorem neat_armRetry : s.Neat s.armRetry := ⟨rfl, fun h => h.apart (.arm _)⟩

theorem neat_shutDown : s.Neat s.shutDown :=
  ⟨rfl, fun h => ((h.apart (.stop _)).setConnected false).agenda rfl⟩

namespace Stands

variable {s}

theorem comeUp (h : s.Stands pending l) : s.comeUp.Stands pending (l.comeUp l.news) := by
  have hrecorded : (s.record .up).Stands pending l := h
  refine hrecorded.turn (fun _ => rfl) ?_
  rintro c rfl
  let up : Client Completion := { c with connection := .connected }
  have hreset : up.line s.wire.connectionUp =
      { up.line s.wire with retries := s.wire.retries.reset } := up.line_cancelRetry s.wire _
  rw [Client.line_setConnected, hreset]
  rfl

theorem goDown (h : s.Stands pending l) :
    s.goDown.Stands pending { l with state := .disconnected, sends := false } := by
  have hrecorded : (s.record .down).Stands pending l := h
  refine hrecorded.turn (fun _ => rfl) ?_
  rintro c rfl
  rw [Client.line_setConnected]
  rfl

/-- A renewal may take a number, which is no part of the line. -/
theorem renew (h : s.Stands pending l) (c : Client Completion) :
    (s.renew c).Stands pending { l with queue := c.renewal s.store } := by
  unfold Session.renew
  dsimp only
  split
  · refine h.rewire ?_
    rintro d rfl
    exact d.line_pushAll s.wire.clear _
  · have hnumbered : ((s.adjustClient fun c => c.allocate.2).record
        (.allocated c.nextSequence)).Stands pending l := by
      obtain ⟨seat, hseat, hpending, hl⟩ := h
      exact ⟨_, Course.client_adjustClient hseat fun c => c.allocate.2, hpending, hl⟩
    refine hnumbered.rewire ?_
    rintro d rfl
    exact d.line_pushAll s.wire.clear _

theorem armRetry (h : s.Stands pending l) :
    s.armRetry.Stands pending { l with retries := l.retries.arm } := by
  refine h.rewire ?_
  rintro c rfl
  exact c.line_arm s.wire

theorem shutDown (h : s.Stands pending l) : s.shutDown.Stands pending l.stop := by
  refine h.turn (fun _ => rfl) ?_
  rintro c rfl
  let down : Client Completion := { c with connection := .disconnected, started := false }
  have hstopped : down.line s.wire.stop =
      { down.line s.wire with retries := s.wire.retries.stop } := down.line_cancelRetry s.wire _
  have hclosed : down.line s.shutDown.wire =
      { down.line (s.wire.stop.setConnected false) with up := false } := rfl
  change down.line s.shutDown.wire = _
  rw [hclosed, Client.line_setConnected, hstopped]
  rfl

/-- A notice that the link went down. Only if a connection was up, and is to come up again, does
something else take the place of what was left to send. -/
theorem onDisconnected (h : s.Stands pending l) (carryOut : Callback → Session → Session) :
    ∃ queue, (queue ≠ l.queue → l.reconnects = true ∧ l.state = .connected) ∧
      ((Client.onDisconnected : Run Unit) carryOut s).2.Stands pending
        (l.goDown l.news queue) ∧
      s.Neat ((Client.onDisconnected : Run Unit) carryOut s).2 := by
  obtain ⟨seat, hseat, rfl, rfl⟩ := h
  have hdown := (of_client hseat).goDown
  rw [Client.onDisconnected_apply hseat]
  split
  · rename_i hauto
    have hauto : (seat.client.line s.wire).reconnects = true := hauto
    split
    · rename_i hconnected
      refine ⟨seat.client.renewal s.goDown.store, fun _ => ⟨hauto, hconnected⟩, ?_,
        (s.neat_goDown.trans (neat_renew _ _)).trans (neat_armRetry _)⟩
      rw [Line.goDown_of_reconnects hauto]
      exact (hdown.renew seat.client).armRetry
    · refine ⟨_, fun hne => absurd rfl hne, ?_, s.neat_goDown.trans (neat_armRetry _)⟩
      rw [Line.goDown_of_reconnects hauto]
      exact hdown.armRetry
  · rename_i hauto
    have hauto : ¬(seat.client.line s.wire).reconnects = true := hauto
    refine ⟨_, fun hne => absurd rfl hne, ?_, s.neat_goDown⟩
    rw [Line.goDown_of_not hauto]
    exact hdown

end Stands

end Session

/-! ## Moves of the line -/

section

variable {carryOut : Callback → Session → Session} {seat : ClientSeat}

theorem Client.start_apply (hseat : s.client = some seat) :
    ((start : Run Unit) carryOut s).2 =
      if seat.client.started then s
      else if s.wire.link.reachable then
        { s.adjustClient fun c => { c with started := true, connection := .connecting } with
          wire := s.wire.dialled }
      else
        { s.adjustClient fun c => { c with started := true, connection := .disconnected } with
          wire := s.wire.dialled.arm } := by
  obtain ⟨store, listeners, handles, uses, log, files, loaders, nextLoader, filter, client,
    ⟨agenda, ⟨connected, reachable, attempts, sent⟩, outbox, reconnector, framing⟩, journal⟩ := s
  obtain ⟨⟨_, _, _, _, _, _, started, _⟩, listener, tenure⟩ := seat
  cases hseat
  cases started <;> cases reachable <;> rfl

theorem Run.retry_apply (hseat : s.client = some seat) :
    ((Station.retry : Run Unit) carryOut s).2 =
      { s.adjustClient (·.retried s.wire.link.reachable) with
        wire := { s.wire with reconnector := s.wire.reconnector.fired }.dialled.arm } := by
  obtain ⟨store, listeners, handles, uses, log, files, loaders, nextLoader, filter, client,
    ⟨agenda, ⟨connected, reachable, attempts, sent⟩, outbox, reconnector, framing⟩, journal⟩ := s
  cases hseat
  cases reachable <;> rfl

namespace Along

theorem start (hs : s.client = some seat) (hallowed : outer .start) :
    Along inner outer s ((Client.start : Run Unit) carryOut s).2 := by
  have hstands := Session.Stands.of_client hs
  rw [Client.start_apply hs]
  split
  · exact .refl s
  · rename_i hstarted
    have hnot : (seat.client.line s.wire).started = false := Bool.eq_false_iff.mpr hstarted
    split
    · rename_i hreachable
      refine .step (.started true) hstands (hstands.turn (fun _ => rfl) fun c hline => ?_)
        (s.neat_adjust _ (·.dialled)) (.start true hnot) hallowed
      rw [Client.line_dialled, hreachable, ← hline]
      rfl
    · rename_i hreachable
      refine .step (.started false) hstands (hstands.turn (fun _ => rfl) fun c hline => ?_)
        (s.neat_adjust _ (·.dialled.apart (.arm _))) (.start false hnot) hallowed
      rw [Client.line_arm, Wire.retries_dialled, Client.line_dialled,
        Bool.eq_false_iff.mpr hreachable, ← hline]
      rfl

theorem shutdown (hs : s.client = some seat) (hallowed : outer .shutdown) :
    Along inner outer s s.shutDown :=
  have hstands := Session.Stands.of_client hs
  .step (.stopped (seat.client.line s.wire).news) hstands hstands.shutDown s.neat_shutDown .stop
    hallowed

/-- The timer at the front fires: it is taken, and an attempt to connect again is made. -/
theorem retry {timer : Timer (Job LinkEvent)} {rest : List (Timer (Job LinkEvent))}
    (hs : s.client = some seat) (htimers : s.wire.agenda.timers = timer :: rest) :
    Along inner outer s
      ((Station.retry : Run Unit) carryOut { s with wire := s.wire.withTimers rest }).2 := by
  let fired := { s.wire.withTimers rest with reconnector := s.wire.reconnector.fired }
  have hfired (h : s.wire.Tidy) : fired.Tidy := by
    have hfewer : s.wire.Apart (s.wire.withTimers rest) :=
      .fewer fun later hlater => htimers ▸ List.mem_cons_of_mem _ hlater
    exact (h.apart hfewer).agenda rfl
  have hwaits : (seat.client.line s.wire).retries.timers = timer.number :: rest.map (·.number) := by
    simp [Client.line, Wire.retries, htimers]
  have htaken : { s with wire := s.wire.withTimers rest }.client = some seat := hs
  have hstands := Session.Stands.of_client hs
  rw [Run.retry_apply htaken]
  change Along inner outer s
    { s.adjustClient (·.retried s.wire.link.reachable) with wire := fired.dialled.arm }
  refine .step (.retried s.wire.link.reachable) hstands
    (hstands.turn (fun c => c.pending_retried _) fun c hline => ?_)
    (s.neat_adjust _ fun h => ((hfired h).dialled).apart (.arm _)) (.retry _ hwaits) trivial
  rw [Client.line_arm, Wire.retries_dialled, Client.line_dialled, Client.line_retried, ← hline]
  rfl

end Along

/-! ## Jobs -/

variable {job : Job LinkEvent} {rest : List (Job LinkEvent)}

theorem Wire.Tidy.withTasks {w : Wire LinkEvent} (h : w.Tidy)
    (htasks : w.agenda.tasks = job :: rest) : (w.withTasks rest).Tidy :=
  ⟨fun hmem => h.calm (htasks ▸ List.mem_cons_of_mem _ hmem), h.timers⟩

/-- A notice is taken off the agenda by a client that is kept while it hears it. -/
theorem Session.Stands.taken {up : Bool} (h : s.Stands pending l)
    (htasks : s.wire.agenda.tasks = job :: rest) (hjob : job.news? = some up) :
    l.news = up :: rest.filterMap Job.news? ∧
      ({ s with wire := s.wire.withTasks rest }.tendClient Tenure.hold).Stands pending
        { l with news := rest.filterMap Job.news? } := by
  obtain ⟨seat, hseat, hpending, hl⟩ := h
  constructor
  · rw [← hl]
    simp only [Client.line, htasks, List.filterMap_cons_some hjob]
  · have htaken : { s with wire := s.wire.withTasks rest }.Stands pending
        { l with news := rest.filterMap Job.news? } := ⟨seat, hseat, hpending, hl ▸ rfl⟩
    exact htaken.hold

theorem Session.neat_taken (htasks : s.wire.agenda.tasks = job :: rest) :
    s.Neat ({ s with wire := s.wire.withTasks rest }.tendClient Tenure.hold) :=
  have htaken : s.Neat { s with wire := s.wire.withTasks rest } :=
    ⟨rfl, fun h => h.withTasks htasks⟩
  htaken.trans (neat_hold _)

namespace Along

theorem connected (hs : s.client = some seat)
    (htasks : s.wire.agenda.tasks = .own .connected :: rest) :
    Along inner outer s ((Client.onConnected : Run Unit) carryOut
      ({ s with wire := s.wire.withTasks rest }.tendClient Tenure.hold)).2 := by
  have hstands := Session.Stands.of_client hs
  obtain ⟨hnews, htaken⟩ := hstands.taken htasks rfl
  exact .step (.told true) hstands htaken.comeUp
    ((Session.neat_taken htasks).trans (Session.neat_comeUp _)) (.comeUp hnews) trivial

theorem disconnected (hs : s.client = some seat)
    (htasks : s.wire.agenda.tasks = .own .disconnected :: rest) :
    Along inner outer s ((Client.onDisconnected : Run Unit) carryOut
      ({ s with wire := s.wire.withTasks rest }.tendClient Tenure.hold)).2 := by
  have hstands := Session.Stands.of_client hs
  obtain ⟨hnews, htaken⟩ := hstands.taken htasks rfl
  obtain ⟨queue, hqueue, hdown, hneat⟩ := htaken.onDisconnected carryOut
  exact .step (.told false) hstands hdown ((Session.neat_taken htasks).trans hneat)
    (.goDown hnews hqueue) trivial

theorem drain : Along inner outer s { s with wire := s.wire.drain } := by
  cases htake : s.wire.outbox.take.1 with
  | none => exact .unseen (·.drain) fun c => c.line_drain_of_none s.wire htake
  | some message =>
    unfold Outbox.take at htake
    split at htake
    · rename_i taken rest hconnected hmessages
      refine .rewire (·.drain) fun _ _ => ⟨[.sent taken], fun c => ?_, fun move hmem => ?_⟩
      · rw [c.line_drain_of_some s.wire hconnected hmessages]
        exact .single (.send hconnected hmessages)
      · rw [List.mem_singleton.mp hmem]
        trivial
    · cases htake

end Along

end

end ValueTree
