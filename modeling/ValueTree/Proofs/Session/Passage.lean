import ValueTree.Proofs.Session.Course
import ValueTree.Proofs.Store.Edits
import ValueTree.Proofs.Sync.Outbox

/-!
# Passages

What can become of a session as a whole while commands are carried out: the store, the client with
its journal, and the wire. A passage is made of acts, and each act is a moment in the history of the
client. A course is what a passage shows of the client and its journal alone.
-/

namespace ValueTree

/-! ## The wire at other work -/

namespace Wire

variable {τ : Type}

def withTasks (w : Wire τ) (tasks : List (Job τ)) : Wire τ :=
  { w with agenda := { w.agenda with tasks } }

def withTimers (w : Wire τ) (timers : List (Timer (Job τ))) : Wire τ :=
  { w with agenda := { w.agenda with timers } }

/-- No message and no drain comes or goes, and the link stays up or down as it is. -/
structure Apart (w v : Wire τ) : Prop where
  outbox : v.outbox = w.outbox
  link : v.link.connected = w.link.connected
  drains : drains v.agenda.tasks = drains w.agenda.tasks
  tasks {job : Job τ} : job ∈ v.agenda.tasks → job ∈ w.agenda.tasks ∨ ∃ task, job = .own task
  timers {timer : Timer (Job τ)} :
    timer ∈ v.agenda.timers → timer ∈ w.agenda.timers ∨ timer.task = .retry

theorem drains_cons_retry (jobs : List (Job τ)) : drains (.retry :: jobs) = drains jobs :=
  List.countP_cons_of_neg nofun

namespace Apart

variable {u v w : Wire τ}

theorem refl (w : Wire τ) : w.Apart w := ⟨rfl, rfl, rfl, Or.inl, Or.inl⟩

theorem trans (h : u.Apart v) (h' : v.Apart w) : u.Apart w where
  outbox := h'.outbox.trans h.outbox
  link := h'.link.trans h.link
  drains := h'.drains.trans h.drains
  tasks hjob := (h'.tasks hjob).elim h.tasks Or.inr
  timers htimer := (h'.timers htimer).elim h.timers Or.inr

theorem post (w : Wire τ) (task : τ) : w.Apart (w.post task) where
  outbox := rfl
  link := rfl
  drains := drains_append _ _
  tasks {job} hjob := by
    rcases List.mem_append.mp hjob with hjob | hjob
    · exact Or.inl hjob
    · exact Or.inr ⟨task, List.mem_singleton.mp hjob⟩
  timers := Or.inl

/-- A job that is no drain is taken off the agenda. -/
theorem next {job : Job τ} {rest : List (Job τ)} (htasks : w.agenda.tasks = job :: rest)
    (hjob : job ≠ .drain) : w.Apart (w.withTasks rest) where
  outbox := rfl
  link := rfl
  drains := by
    unfold withTasks
    rw [htasks]
    cases job with
    | drain => exact absurd rfl hjob
    | retry => exact (drains_cons_retry rest).symm
    | own task => exact (drains_cons_own task rest).symm
  tasks hrest := Or.inl (htasks ▸ List.mem_cons_of_mem _ hrest)
  timers := Or.inl

theorem relink {link : Link} (h : link.connected = w.link.connected) :
    w.Apart { w with link } := ⟨rfl, h, rfl, Or.inl, Or.inl⟩

/-- Timers may go. -/
theorem fewer {timers : List (Timer (Job τ))} (h : ∀ timer ∈ timers, timer ∈ w.agenda.timers) :
    w.Apart (w.withTimers timers) :=
  ⟨rfl, rfl, rfl, Or.inl, fun htimer => Or.inl (h _ htimer)⟩

theorem reconnect (w : Wire τ) (reconnector : Reconnector) : w.Apart { w with reconnector } :=
  ⟨rfl, rfl, rfl, Or.inl, Or.inl⟩

theorem cancelRetry (w : Wire τ) : w.Apart w.cancelRetry := by
  unfold Wire.cancelRetry
  split
  · exact fewer fun timer htimer => (List.mem_filter.mp htimer).1
  · exact refl w

theorem connectionUp (w : Wire τ) : w.Apart w.connectionUp :=
  (cancelRetry w).trans (reconnect _ _)

theorem stop (w : Wire τ) : w.Apart w.stop := (cancelRetry w).trans (reconnect _ _)

theorem arm (w : Wire τ) : w.Apart w.arm := by
  unfold Wire.arm
  split
  · exact refl w
  · refine ⟨rfl, rfl, rfl, Or.inl, fun {timer} htimer => ?_⟩
    rcases List.mem_append.mp htimer with htimer | htimer
    · exact Or.inl htimer
    · rw [List.mem_singleton.mp htimer]
      exact Or.inr rfl

end Apart

end Wire

/-! ## The connection of a session -/

/-- What is sent anew, in this order, from the entries of the application and the state of the
store. -/
def Client.renewal {κ : Type} (c : Client κ) (s : Store) : List Message :=
  let entries := c.entries.flatMap (entryUpdates c.config.app s)
  let values := currentValues s
  (if entries.isEmpty then [] else [.valueChanged entries]) ++
    if values.isEmpty then []
    else [.valueChanged (values.map .set), .subscribe c.nextSequence (values.map (·.id))]

namespace Session

/-- The client hears that the link is up. -/
def comeUp (s : Session) : Session :=
  { (s.record .up).adjustClient fun c => { c with connection := .connected } with
    wire := s.wire.connectionUp.setConnected true }

/-- The client hears that the link is down. -/
def goDown (s : Session) : Session :=
  { (s.record .down).adjustClient fun c => { c with connection := .disconnected } with
    wire := s.wire.setConnected false }

/-- What was left to send makes way for the renewal. -/
def renew (s : Session) (c : Client Completion) : Session :=
  let numbered :=
    if (Client.currentValues s.store).isEmpty then s
    else (s.adjustClient fun c => c.allocate.2).record (.allocated c.nextSequence)
  { numbered with wire := (c.renewal s.store).foldl Wire.push s.wire.clear }

def armRetry (s : Session) : Session := { s with wire := s.wire.arm }

def shutDown (s : Session) : Session :=
  { s.adjustClient fun c => { c with connection := .disconnected, started := false } with
    wire :=
      let w := s.wire.stop.setConnected false
      { w with link := w.link.close } }

end Session

/-! ## Acts -/

/-- What a client and its wire show at one moment. -/
inductive Moment
  | quiet
  /-- The application has an entry at a root. -/
  | entered (root : Id)
  | queued (message : Message)
  /-- A drain takes a message off the outbox. It is written if a frame can hold it and the link is
  up, and lost otherwise. -/
  | taken (message : Message) (written : Bool)
  /-- The link becomes another by itself. -/
  | linked (connected : Bool)
  | up
  | down
  /-- A connection was up, and it is to come up again. -/
  | lost
  | stopped
deriving DecidableEq

/-- A drain shows the message that it takes. -/
def Moment.drained {τ : Type} (w : Wire τ) : Moment :=
  match w.outbox.take.1 with
  | some message => .taken message (w.link.connected && message.Fits)
  | none => .quiet

/-- What a client is set up with, what it is to send anew, and whether it is connected, is the same
for another. -/
structure Client.SameDuties {κ : Type} (c d : Client κ) : Prop where
  config : c.config = d.config
  entries : c.entries = d.entries
  connected : c.connection = .connected ↔ d.connection = .connected

inductive Act (s : Session) : Moment → Session → Prop
  /-- Neither the store nor the client, its journal or the wire changes. -/
  | aside {t : Session} : t.store = s.store → t.client = s.client → t.journal = s.journal →
    t.wire = s.wire → Act s .quiet t
  | store {declared : List Schema} {after : Store} : s.store.Step declared after →
    Act s .quiet { s with store := after }
  | queue (message : Message) :
    Act s (.queued message) { s with wire := s.wire.push message }
  | wire {after : Wire LinkEvent} : s.wire.Apart after → Act s .quiet { s with wire := after }
  | link (link : Link) : Act s (.linked link.connected) { s with wire := { s.wire with link } }
  /-- A drain that stood at the front of the agenda. -/
  | drain {rest : List (Job LinkEvent)} : s.client.isSome = true →
    s.wire.agenda.tasks = .drain :: rest →
      Act s (.drained s.wire) { s with wire := (s.wire.withTasks rest).drain }
  /-- A drain without a client. -/
  | pass {rest : List (Job LinkEvent)} : s.client = none → s.wire.agenda.tasks = .drain :: rest →
    Act s .quiet { s with wire := s.wire.withTasks rest }
  /-- A drain that stood with the timers. -/
  | timed {timer : Timer (Job LinkEvent)} {rest : List (Timer (Job LinkEvent))} :
    s.wire.agenda.timers = timer :: rest → timer.task = .drain →
      Act s (.drained s.wire) { s with wire := (s.wire.withTimers rest).drain }
  | up : Act s .up s.comeUp
  /-- The loss of a connection that was not up yet, or that is not to come up again. -/
  | down {seat : ClientSeat} : s.client = some seat →
    (seat.client.config.autoReconnect = true → seat.client.connection ≠ .connected) →
      Act s .down s.goDown
  | lost {seat : ClientSeat} : s.client = some seat →
    seat.client.config.autoReconnect = true → seat.client.connection = .connected →
      Act s .lost (s.goDown.renew seat.client).armRetry
  | shutDown : Act s .stopped s.shutDown
  /-- The first attempt to connect, or its failure. -/
  | start {seat : ClientSeat} {connection : ConnectionState} : s.client = some seat →
    seat.client.started = false → connection ≠ .connected →
      Act s .quiet (s.adjustClient fun c => { c with started := true, connection })
  | adjust {f : Client Completion → Client Completion} :
    (∀ c, (f c).SameBooks c) → (∀ c, (f c).SameDuties c) → Act s .quiet (s.adjustClient f)
  | enter {root entry : Id} {seat : ClientSeat} : s.client = some seat →
    root.join seat.client.config.app = .ok entry →
      Act s (.entered root) (s.adjustClient fun c =>
        if root ∈ c.entries then c else { c with entries := c.entries ++ [root] })
  | allocate {seat : ClientSeat} : s.client = some seat →
    Act s .quiet ((s.adjustClient fun c => c.allocate.2).record
      (.allocated seat.client.nextSequence))
  | register {seat : ClientSeat} (completion : Completion) : s.client = some seat →
    Act s .quiet (((s.adjustClient fun c => (c.register completion).2).record
      (.allocated seat.client.nextSequence)).record
        (.registered seat.client.nextSequence completion))
  | cancel {seat : ClientSeat} (n : UInt32) : s.client = some seat →
    Act s .quiet ((s.adjustClient fun c => (c.take n).2).record
      (.cancelled n (seat.client.take n).1.isSome))
  | answer (n : UInt32) (ok : Bool) : Act s .quiet (s.record (.answered n ok))
  /-- A result without a completion. -/
  | miss {seat : ClientSeat} {n : UInt32} : s.client = some seat →
    (seat.client.take n).1 = none → Act s .quiet (s.adjustClient fun c => (c.take n).2)
  /-- A result brings its completion to run. -/
  | run {seat : ClientSeat} {n : UInt32} {ok : Bool} {completion : Completion} :
    s.client = some seat → (seat.client.take n).1 = some completion → AtResult s.journal n ok →
    Act s .quiet ((s.adjustClient fun c => (c.take n).2).record (.ran n completion ok))
  | release : Act s .quiet (s.tendClient Tenure.release)

/-- What an act shows of the client and its journal. -/
theorem Act.course {moment : Moment} {s t : Session} (h : Act s moment t) : Course [] s t := by
  have hwire (s : Session) (wire : Wire LinkEvent) : Course [] s { s with wire } :=
    .silent rfl rfl
  have hconnection (s : Session) (connection : ConnectionState) :
      Course [] s (s.adjustClient fun c => { c with connection }) :=
    .adjust s fun _ => ⟨rfl, rfl, rfl, rfl⟩
  have hdown (s : Session) : Course [] s s.goDown :=
    ((Course.down s).trans (hconnection _ _)).trans (hwire _ _)
  cases h with
  | aside _ hclient hjournal _ => exact .silent hclient hjournal
  | store _ => exact .silent rfl rfl
  | queue _ | wire _ | link _ | drain _ _ | pass _ _ | timed _ _ => exact hwire _ _
  | up => exact ((Course.up s).trans (hconnection _ _)).trans (hwire _ _)
  | down _ _ => exact hdown _
  | @lost seat hseat _ _ =>
    -- The number of the subscription is taken by the client that was told of the loss.
    have hnow : s.goDown.client =
        some { seat with client := { seat.client with connection := .disconnected } } :=
      Course.client_adjustClient hseat fun c => { c with connection := .disconnected }
    have hnumbered := Course.allocate hnow
    refine (hdown s).trans (.trans ?_ (hwire _ _))
    unfold Session.renew
    refine .trans ?_ (hwire _ _)
    split
    · exact .refl _
    · exact hnumbered
  | shutDown =>
    have hclosed : Course [] s (s.adjustClient fun c =>
        { c with connection := .disconnected, started := false }) :=
      .adjust s fun _ => ⟨rfl, rfl, rfl, rfl⟩
    exact hclosed.trans (hwire _ _)
  | start _ _ _ => exact .adjust _ fun _ => ⟨rfl, rfl, rfl, rfl⟩
  | adjust hbooks _ => exact .adjust s hbooks
  | enter _ _ =>
    refine .adjust _ fun c => ?_
    split <;> exact ⟨rfl, rfl, rfl, rfl⟩
  | allocate hseat => exact .allocate hseat
  | register completion hseat => exact .register completion hseat
  | cancel n hseat => exact .cancel n hseat
  | answer n ok => exact .answer s n ok
  | miss hseat hnone => exact .miss hseat hnone
  | run hseat hsome hat => exact .run hseat hsome hat
  | release => exact .release s

/-! ## What a client is set up with -/

theorem Session.client_renew {s : Session} {c : Client Completion} {after : ClientSeat}
    (h : (s.renew c).client = some after) :
    ∃ seat, s.client = some seat ∧ after.client.config = seat.client.config ∧
      after.client.entries = seat.client.entries ∧
        after.client.connection = seat.client.connection := by
  unfold Session.renew at h
  dsimp only at h
  split at h
  · exact ⟨after, h, rfl, rfl, rfl⟩
  · obtain ⟨seat, hseat, rfl⟩ := Option.map_eq_some_iff.mp h
    exact ⟨seat, hseat, rfl, rfl, rfl⟩

/-- The entries after a moment. -/
def Moment.enter (entries : List Id) : Moment → List Id
  | .entered root => if root ∈ entries then entries else entries ++ [root]
  | _ => entries

@[simp]
theorem Moment.enter_drained {τ : Type} (entries : List Id) (w : Wire τ) :
    enter entries (drained w) = entries := by
  unfold drained
  split <;> rfl

/-- What a moment makes of a client. -/
structure Moment.Tends {κ : Type} (moment : Moment) (c d : Client κ) : Prop where
  config : d.config = c.config
  entries : d.entries = moment.enter c.entries
  connected : d.connection = .connected → moment = .up ∨ c.connection = .connected

theorem Moment.Tends.quiet {κ : Type} {c d : Client κ} (h : d = c) : quiet.Tends c d :=
  h ▸ ⟨rfl, rfl, Or.inr⟩

theorem Act.client {moment : Moment} {s t : Session} (h : Act s moment t) {after : ClientSeat}
    (ht : t.client = some after) :
    ∃ seat, s.client = some seat ∧ moment.Tends seat.client after.client := by
  cases h with
  | aside _ hclient _ _ => exact ⟨after, hclient ▸ ht, .quiet rfl⟩
  | store _ | queue _ | wire _ | link _ | pass _ _ | answer _ _ =>
    exact ⟨after, ht, rfl, rfl, Or.inr⟩
  | drain _ _ | timed _ _ => exact ⟨after, ht, rfl, (Moment.enter_drained _ _).symm, Or.inr⟩
  | up =>
    obtain ⟨seat, hseat, rfl⟩ := Option.map_eq_some_iff.mp ht
    exact ⟨seat, hseat, rfl, rfl, fun _ => Or.inl rfl⟩
  | down _ _ | shutDown =>
    obtain ⟨seat, hseat, rfl⟩ := Option.map_eq_some_iff.mp ht
    exact ⟨seat, hseat, rfl, rfl, nofun⟩
  | lost _ _ _ =>
    obtain ⟨mid, hmid, hconfig, hentries, hconnection⟩ := Session.client_renew ht
    obtain ⟨seat, hseat, rfl⟩ := Option.map_eq_some_iff.mp hmid
    refine ⟨seat, hseat, hconfig, hentries, fun hconnected => ?_⟩
    cases hconnection.symm.trans hconnected
  | start _ _ hnot =>
    obtain ⟨seat, hseat, rfl⟩ := Option.map_eq_some_iff.mp ht
    exact ⟨seat, hseat, rfl, rfl, fun hconnected => absurd hconnected hnot⟩
  | adjust _ hduties =>
    obtain ⟨seat, hseat, rfl⟩ := Option.map_eq_some_iff.mp ht
    obtain ⟨hconfig, hentries, hconnected⟩ := hduties seat.client
    exact ⟨seat, hseat, hconfig, hentries, fun h => Or.inr (hconnected.mp h)⟩
  | enter _ _ =>
    obtain ⟨seat, hseat, rfl⟩ := Option.map_eq_some_iff.mp ht
    refine ⟨seat, hseat, ?_⟩
    dsimp only
    split
    · exact ⟨rfl, (if_pos ‹_›).symm, Or.inr⟩
    · exact ⟨rfl, (if_neg ‹_›).symm, Or.inr⟩
  | allocate _ | register _ _ | cancel _ _ | miss _ _ | run _ _ _ =>
    obtain ⟨seat, hseat, rfl⟩ := Option.map_eq_some_iff.mp ht
    exact ⟨seat, hseat, rfl, rfl, Or.inr⟩
  | release =>
    obtain ⟨seat, hseat, hsame⟩ := Course.client_tendClient ht
    exact ⟨seat, hseat, .quiet hsame⟩

/-! ## Passages -/

/-- A passage from one session to another. It starts with the handling of some messages, one after
the other. -/
inductive Passage : List Message → Session → Session → Prop
  | refl (s : Session) : Passage [] s s
  | act {moment : Moment} {s t : Session} : Act s moment t → Passage [] s t
  | trans {s t u : Session} : Passage [] s t → Passage [] t u → Passage [] s u
  | held {s t : Session} : s.client.isSome = true →
    Passage [] (s.tendClient Tenure.hold) t → Passage [] s (t.tendClient Tenure.letGo)
  /-- Bytes come in, and the messages that they complete are handled at once. -/
  | receive {s t : Session} {seat : ClientSeat} (bytes : List UInt8) : s.client = some seat →
    Passage (seat.client.receive bytes).1
      ((s.adjustClient fun c => (c.receive bytes).2).record
        (.received bytes (seat.client.receive bytes).1)) t →
    Passage [] s t
  | within {messages : List Message} {s t : Session} : Passage messages s t → Passage [] s t
  | handle {message : Message} {rest : List Message} {s t u : Session} :
    Passage [] (s.record (.began message)) t → Passage rest (t.record (.ended message)) u →
    Passage (message :: rest) s u

namespace Passage

variable {messages : List Message} {s t : Session}

theorem course (h : Passage messages s t) : Course messages s t := by
  induction h with
  | refl s => exact .refl s
  | act h => exact h.course
  | trans _ _ ih₁ ih₂ => exact ih₁.trans ih₂
  | held hsome _ ih => exact .held hsome ih
  | receive bytes hseat _ ih => exact .receive bytes hseat ih
  | within _ ih => exact .within ih
  | handle _ _ ih₁ ih₂ => exact .handle ih₁ ih₂

theorem config (h : Passage messages s t) {after : ClientSeat} (ht : t.client = some after) :
    ∃ seat, s.client = some seat ∧ after.client.config = seat.client.config := by
  induction h generalizing after with
  | refl _ => exact ⟨after, ht, rfl⟩
  | act h =>
    obtain ⟨seat, hseat, htends⟩ := h.client ht
    exact ⟨seat, hseat, htends.config⟩
  | trans _ _ ih₁ ih₂ =>
    obtain ⟨mid, hmid, hafter⟩ := ih₂ ht
    obtain ⟨seat, hseat, hbefore⟩ := ih₁ hmid
    exact ⟨seat, hseat, hafter.trans hbefore⟩
  | held _ _ ih =>
    obtain ⟨mid, hmid, hafter⟩ := Course.client_tendClient ht
    obtain ⟨inner, hinner, hmiddle⟩ := ih hmid
    obtain ⟨seat, hseat, hbefore⟩ := Course.client_tendClient hinner
    exact ⟨seat, hseat, by rw [hafter, hmiddle, hbefore]⟩
  | receive bytes _ _ ih =>
    obtain ⟨mid, hmid, hafter⟩ := ih ht
    obtain ⟨seat, hseat, rfl⟩ := Option.map_eq_some_iff.mp hmid
    exact ⟨seat, hseat, hafter⟩
  | within _ ih => exact ih ht
  | handle _ _ ih₁ ih₂ =>
    obtain ⟨mid, hmid, hafter⟩ := ih₂ ht
    obtain ⟨seat, hseat, hbefore⟩ := ih₁ hmid
    exact ⟨seat, hseat, hafter.trans hbefore⟩

end Passage

end ValueTree
