import ValueTree.Proofs.Session.Completions
import ValueTree.Proofs.Session.Orderly
import ValueTree.Proofs.Store.Legality
import ValueTree.Proofs.Sync.Echo
import ValueTree.Proofs.Sync.Outbox

/-!
# What the listener of a client puts into the outbox

While messages are handled and nobody else acts on the store, a session does what a mirror does, and
the outbox takes the messages that its events make.
-/

namespace ValueTree

/-! ## Looking on -/

/-- A reaction that only asks questions. -/
def OnlyLooks (reaction : List Command) : Prop :=
  ∀ command ∈ reaction, ∃ query, command = .query query

namespace Session

/-- Nothing but messages in the outbox is new to the client and the store. -/
structure Sends (s t : Session) (messages : List Message) : Prop where
  store : t.store = s.store
  filter : t.filter = s.filter
  listeners : t.listeners = s.listeners
  client : t.client = s.client
  outbox : t.wire.outbox.messages = s.wire.outbox.messages ++ messages

namespace Sends

variable {s t u : Session} {messages messages' : List Message}

theorem refl (s : Session) : s.Sends s [] := ⟨rfl, rfl, rfl, rfl, (List.append_nil _).symm⟩

theorem trans (h : s.Sends t messages) (h' : t.Sends u messages') :
    s.Sends u (messages ++ messages') where
  store := h'.store.trans h.store
  filter := h'.filter.trans h.filter
  listeners := h'.listeners.trans h.listeners
  client := h'.client.trans h.client
  outbox := by rw [h'.outbox, h.outbox, List.append_assoc]

end Sends

/-- There is a client that has an owner and completions that only look on. -/
def Owned (s : Session) : Prop :=
  ∃ seat, s.client = some seat ∧ seat.tenure.released = false ∧
    ∀ entry ∈ seat.client.pending, OnlyLooks entry.2.reaction

/-- The client hears of every event once. Whoever else hears of one only looks on. -/
structure Attended (s : Session) : Prop where
  owned : s.Owned
  listeners : ∃ before after, s.listeners.snapshot = before ++ .client :: after ∧
    ∀ listener ∈ before ++ after, ∃ observer, listener = .observer observer ∧
      OnlyLooks observer.reaction

end Session

namespace Run

variable {α β : Type} {s : Session}

/-- Leaves everything as it is but the log and the counts of reactions. -/
def Looks (x : Run α) : Prop :=
  ∀ (calls : Callback → Session → Session) (s : Session), s.Sends (x calls s).2 []

theorem Looks.bind {x : Run α} {f : α → Run β} (hx : Looks x) (hf : ∀ a, Looks (f a)) :
    Looks (x >>= f) :=
  fun calls s => (hx calls s).trans (hf _ calls _)

theorem looks_forM {xs : List α} {f : α → Run PUnit} (hf : ∀ a ∈ xs, Looks (f a)) :
    Looks (xs.forM f) := by
  induction xs with
  | nil => exact fun _ s => .refl s
  | cons x rest ih =>
    exact .bind (hf x List.mem_cons_self) fun _ => ih fun a ha => hf a (List.mem_cons_of_mem _ ha)

theorem looks_log (entry : LogEntry) : Looks (log entry) :=
  fun _ _ => ⟨rfl, rfl, rfl, rfl, (List.append_nil _).symm⟩

theorem looks_react {name : String} {reaction : List Command} {limit : Nat}
    (h : OnlyLooks reaction) : Looks (react name reaction limit) := by
  intro calls s
  unfold react
  rw [get_bind]
  split
  · have hcounted : s.Sends (s.countUse name) [] :=
      ⟨rfl, rfl, rfl, rfl, (List.append_nil _).symm⟩
    have hreaction : Looks (reaction.forM fun command => do
        let reply ← act command
        log (.within name reply)) := by
      apply looks_forM
      intro command hcommand
      obtain ⟨query, rfl⟩ := h command hcommand
      exact .bind (fun _ s => .refl s) fun _ => looks_log _
    exact hcounted.trans (hreaction calls _)
  · exact .refl s

/-- A reaction that only looks does so however deep callbacks may nest. -/
theorem sends_carryOut {name : String} {reaction : List Command} {limit : Nat}
    (h : OnlyLooks reaction) (fuel : Nat) :
    s.Sends (carryOut fuel (.react name reaction limit) s) [] := by
  cases fuel with
  | zero => exact ⟨rfl, rfl, rfl, rfl, (List.append_nil _).symm⟩
  | succ fuel => exact looks_react h (carryOut fuel) s

/-! ## Hearing -/

theorem sends_mark (mark : Mark) : s.Sends (s.mark mark) [] :=
  ⟨rfl, rfl, rfl, rfl, (List.append_nil _).symm⟩

theorem sends_observed {observer : Observer} (h : OnlyLooks observer.reaction) (event : Event)
    (fuel : Nat) : s.Sends (observed observer event (carryOut fuel) s).2 [] := by
  unfold observed
  split
  · exact (looks_log _ (carryOut fuel) s).trans (sends_carryOut h fuel)
  · exact .refl s

theorem sends_relayed (hclient : s.client.isSome = true) (event : Event)
    (calls : Callback → Session → Session) :
    s.Sends (relayed event calls s).2 event.message?.toList := by
  unfold relayed
  rw [get_bind, if_pos hclient]
  cases event.message? with
  | none => exact .refl s
  | some message => exact ⟨rfl, rfl, rfl, rfl, Wire.messages_push message⟩

theorem sends_observers {listeners : List Listener} (event : Event) (fuel : Nat)
    (h : ∀ listener ∈ listeners, ∃ observer, listener = .observer observer ∧
      OnlyLooks observer.reaction) :
    s.Sends ((listeners.forM (hear event) : Run Unit) (carryOut fuel) s).2 [] := by
  induction listeners generalizing s with
  | nil => exact .refl s
  | cons listener rest ih =>
    obtain ⟨observer, rfl, hlooks⟩ := h listener List.mem_cons_self
    have hrest := fun listener hlistener => h listener (List.mem_cons_of_mem _ hlistener)
    have hheard := (sends_mark (s := s) (.handed (.observer observer.name) event)).trans
      (sends_observed hlooks event fuel)
    exact hheard.trans (ih hrest)

/-- Only the client does something about an event: it puts the message that the event makes into
the outbox. -/
theorem sends_deliver (h : s.Attended) (event : Event) (fuel : Nat) :
    s.Sends (deliver event (carryOut fuel) s).2 event.message?.toList := by
  obtain ⟨before, after, hsnapshot, hlooks⟩ := h.listeners
  obtain ⟨seat, hseat, -⟩ := h.owned
  unfold deliver
  rw [get_bind, hsnapshot, List.forM_eq_forM, List.forM_append]
  have hbefore : s.Sends ((before.forM (hear event) : Run Unit) (carryOut fuel) s).2 [] :=
    sends_observers event fuel fun listener hmem => hlooks listener (List.mem_append_left _ hmem)
  have hclient : (((before.forM (hear event) : Run Unit) (carryOut fuel) s).2).client.isSome =
      true := by
    rw [hbefore.client, hseat]
    rfl
  have hafter := fun t => sends_observers (s := t) event fuel fun listener hmem =>
    hlooks listener (List.mem_append_right before hmem)
  have hrelayed := (sends_mark (.handed .client event)).trans
    (sends_relayed (s := Session.mark _ (.handed .client event)) hclient event (carryOut fuel))
  have hall := hbefore.trans (hrelayed.trans (hafter _))
  rwa [List.nil_append, List.nil_append, List.append_nil] at hall

end Run

/-! ## A session and a mirror -/

/-- A session and a mirror that have come as far as each other, from an outbox and some events that
were there before. -/
structure Reflects (outbox : List Message) (before : List Event) (s : Session) (r : Mirror) :
    Prop where
  attended : s.Attended
  store : s.store = r.quiet.store
  filter : s.filter = r.filter
  events : ∃ new, r.quiet.events = before ++ new ∧
    s.wire.outbox.messages = outbox ++ new.filterMap Event.message?

variable {α β : Type} {outbox : List Message} {before : List Event} {s t : Session} {r : Mirror}

theorem Session.Sends.attended {messages : List Message} (h : s.Sends t messages)
    (hs : s.Attended) : t.Attended := by
  constructor
  · unfold Session.Owned
    rw [h.client]
    exact hs.owned
  · rw [h.listeners]
    exact hs.listeners

/-- The client may be another, but the store and the outbox are the same. -/
structure Session.Keeps (s t : Session) : Prop where
  store : t.store = s.store
  filter : t.filter = s.filter
  listeners : t.listeners = s.listeners
  outbox : t.wire.outbox.messages = s.wire.outbox.messages
  owned : s.Owned → t.Owned

theorem Session.Keeps.trans {u : Session} (h : s.Keeps t) (h' : t.Keeps u) : s.Keeps u where
  store := h'.store.trans h.store
  filter := h'.filter.trans h.filter
  listeners := h'.listeners.trans h.listeners
  outbox := h'.outbox.trans h.outbox
  owned hs := h'.owned (h.owned hs)

theorem Session.Sends.keeps (h : s.Sends t []) : s.Keeps t where
  store := h.store
  filter := h.filter
  listeners := h.listeners
  outbox := by rw [h.outbox, List.append_nil]
  owned hs := by
    unfold Session.Owned
    rwa [h.client]

theorem Reflects.keeps (h : Reflects outbox before s r) (hkeeps : s.Keeps t) :
    Reflects outbox before t r where
  attended := ⟨hkeeps.owned h.attended.owned, hkeeps.listeners ▸ h.attended.listeners⟩
  store := hkeeps.store.trans h.store
  filter := hkeeps.filter.trans h.filter
  events := by
    rw [hkeeps.outbox]
    exact h.events

/-- What is done in a session is what is done to a mirror, with the same answer. -/
def Follows (x : Run α) (y : StateM Mirror α) : Prop :=
  ∀ (fuel : Nat) (outbox : List Message) (before : List Event) (s : Session) (r : Mirror),
    Reflects outbox before s r → (x (Run.carryOut fuel) s).1 = (y r).1 ∧
      Reflects outbox before (x (Run.carryOut fuel) s).2 (y r).2

namespace Follows

theorem pure (a : α) : Follows (pure a) (pure a) := by
  intro fuel outbox before s r h
  exact ⟨rfl, h⟩

theorem bind {x : Run α} {y : StateM Mirror α} {f : α → Run β} {g : α → StateM Mirror β}
    (hx : Follows x y) (hf : ∀ a, Follows (f a) (g a)) : Follows (x >>= f) (y >>= g) := by
  intro fuel outbox before s r h
  obtain ⟨hresult, hafter⟩ := hx fuel outbox before s r h
  rw [bind_apply, hresult]
  exact hf (y r).1 fuel outbox before _ _ hafter

theorem forM {f : α → Run PUnit} {g : α → StateM Mirror PUnit} (hf : ∀ a, Follows (f a) (g a))
    (items : List α) : Follows (items.forM f) (items.forM g) := by
  induction items with
  | nil => exact .pure _
  | cons a rest ih => exact .bind (hf a) fun _ => ih

theorem ite {p : Prop} [Decidable p] {x x' : Run α} {y y' : StateM Mirror α} (hx : Follows x y)
    (hx' : Follows x' y') : Follows (if p then x else x') (if p then y else y') := by
  split
  · exact hx
  · exact hx'

end Follows

/-! ## Changes -/

theorem follows_store : Follows (Host.store : Run Store) (Host.store : StateM Mirror Store) := by
  intro fuel outbox before s r h
  exact ⟨h.store, h⟩

theorem follows_filter :
    Follows (Receiver.filter : Run Filter) (Receiver.filter : StateM Mirror Filter) := by
  intro fuel outbox before s r h
  exact ⟨h.filter, h⟩

theorem sends_forM_deliver (h : s.Attended) (events : List Event) (fuel : Nat) :
    s.Sends ((events.forM Run.deliver : Run Unit) (Run.carryOut fuel) s).2
      (events.filterMap Event.message?) := by
  induction events generalizing s with
  | nil => exact .refl s
  | cons event rest ih =>
    have hfirst := Run.sends_deliver h event fuel
    have hall := hfirst.trans (ih (hfirst.attended h))
    have hmessages : event.message?.toList ++ rest.filterMap Event.message? =
        (event :: rest).filterMap Event.message? := by
      cases hmessage : event.message? <;> simp [hmessage]
    rwa [hmessages] at hall

theorem follows_change (step : Store → Outcome α) :
    Follows (Host.change step : Run (Except StoreError α))
      (Host.change step : StateM Mirror (Except StoreError α)) := by
  intro fuel outbox before s r h
  let outcome := step r.quiet.store
  let changed : Session := { s.mark (.made outcome.events) with store := outcome.store }
  have hattended : changed.Attended := ⟨h.attended.owned, h.attended.listeners⟩
  have hsends := sends_forM_deliver hattended outcome.events fuel
  obtain ⟨new, hevents, houtbox⟩ := h.events
  have hrun : (Host.change step : Run (Except StoreError α)) (Run.carryOut fuel) s =
      (outcome.result, ((outcome.events.forM Run.deliver : Run Unit) (Run.carryOut fuel)
        changed).2) := by
    simp only [changed, outcome, ← h.store]
    rfl
  rw [hrun]
  refine ⟨rfl, hsends.attended hattended, hsends.store, hsends.filter.trans h.filter,
    new ++ outcome.events, ?_, ?_⟩
  · rw [← List.append_assoc, ← hevents]
    rfl
  · rw [hsends.outbox, List.filterMap_append, ← List.append_assoc, ← houtbox]
    rfl

/-! ## Results -/

theorem keeps_tendClient (hs : s.Owned) {f : Tenure → Tenure}
    (hf : ∀ tenure, (f tenure).released = tenure.released) : s.Keeps (s.tendClient f) := by
  obtain ⟨seat, hseat, hreleased, hpending⟩ := hs
  have hstays : (f seat.tenure).isOver = false := by simp [Tenure.isOver, hf, hreleased]
  have htend : s.tendClient f =
      { s with client := some { seat with tenure := f seat.tenure } } := by
    simp [Session.tendClient, hseat, hstays]
  rw [htend]
  exact ⟨rfl, rfl, rfl, rfl, fun _ => ⟨_, rfl, (hf _).trans hreleased, hpending⟩⟩

theorem keeps_take (hs : s.Owned) (n : UInt32) :
    s.Keeps (s.adjustClient fun c => (c.take n).2) := by
  obtain ⟨seat, hseat, hreleased, hpending⟩ := hs
  refine ⟨rfl, rfl, rfl, rfl, fun _ => ?_⟩
  refine ⟨{ seat with client := (seat.client.take n).2 }, ?_, hreleased, ?_⟩
  · simp [Session.adjustClient, hseat]
  · intro entry hentry
    exact hpending entry (List.mem_filter.mp hentry).1

/-- A completion that is run while its result is handled only looks on. -/
theorem keeps_onResult (hs : s.Owned) (n : UInt32) (ok : Bool) (fuel : Nat) :
    s.Keeps ((Client.onResult n ok : Run Unit) (Run.carryOut fuel) s).2 := by
  have htaken := keeps_take hs n
  obtain ⟨seat, hseat, -, hpending⟩ := hs
  unfold Client.onResult
  rw [Run.bind_client hseat]
  cases hlookup : (seat.client.take n).1 with
  | none =>
    simp only [hlookup]
    exact htaken
  | some completion =>
    simp only [hlookup]
    have hlooks : OnlyLooks completion.reaction :=
      hpending (n, completion) (Books.mem_of_take hlookup)
    have hran (u : Session) : u.Sends
        (Run.carryOut fuel (.react ("completion:" ++ completion.tag) completion.reaction
          completion.limit) ((u.record (.ran n completion ok)).write
            (.completed completion.tag ok))) [] := by
      have hrecorded : u.Sends ((u.record (.ran n completion ok)).write
          (.completed completion.tag ok)) [] := ⟨rfl, rfl, rfl, rfl, (List.append_nil _).symm⟩
      exact hrecorded.trans (Run.sends_carryOut hlooks fuel)
    exact htaken.trans (hran _).keeps

theorem follows_answered (n : UInt32) (ok : Bool) :
    Follows (Receiver.answered n ok : Run Unit) (Receiver.answered n ok : StateM Mirror Unit) := by
  intro fuel outbox before s r h
  refine ⟨rfl, ?_⟩
  have hkeeps : s.Keeps ((Receiver.answered n ok : Run Unit) (Run.carryOut fuel) s).2 := by
    have hrecorded : s.Keeps ((s.write (.result n ok)).record (.answered n ok)) :=
      ⟨rfl, rfl, rfl, rfl, fun hs => hs⟩
    obtain ⟨seat, hseat, -⟩ := h.attended.owned
    rw [Run.answered_some hseat]
    refine hrecorded.trans ?_
    split
    · have howned := hrecorded.owned h.attended.owned
      have hheld := keeps_tendClient howned (f := Tenure.hold) fun _ => rfl
      have hrun := keeps_onResult (hheld.owned howned) n ok fuel
      have hlet := keeps_tendClient (hrun.owned (hheld.owned howned)) (f := Tenure.letGo)
        fun _ => rfl
      exact hheld.trans (hrun.trans hlet)
    · exact ⟨rfl, rfl, rfl, rfl, fun hs => hs⟩
  obtain ⟨hattended, hstore, hfilter, hevents⟩ := h.keeps hkeeps
  exact ⟨hattended, hstore, hfilter, hevents⟩

/-! ## Messages -/

theorem follows_applyValue (value : Value) :
    Follows (Receiver.applyValue value : Run Bool)
      (Receiver.applyValue value : StateM Mirror Bool) := by
  refine .bind follows_filter fun filter => .bind follows_store fun store => ?_
  apply Follows.ite
  · exact .pure _
  · apply Follows.ite
    · exact .pure _
    · exact .bind (follows_change _) fun _ => .pure _

theorem follows_applyUpdate (update : Update) :
    Follows (Receiver.applyUpdate update : Run Bool)
      (Receiver.applyUpdate update : StateM Mirror Bool) := by
  cases update with
  | set value => exact follows_applyValue value
  | addKey container key => exact .bind (follows_change _) fun _ => .pure _
  | removeKey container key => exact .bind (follows_change _) fun _ => .pure _

theorem follows_applyRemoval (id : Id) (token? : Option Token) :
    Follows (Receiver.applyRemoval id token? : Run Unit)
      (Receiver.applyRemoval id token? : StateM Mirror Unit) := by
  cases token? with
  | some token => exact .bind (follows_change _) fun _ => .pure _
  | none => exact .bind (follows_change _) fun _ => .pure _

theorem follows_applyResult (status : Status) (values : List Value) :
    Follows (Receiver.applyResult status values : Run Unit)
      (Receiver.applyResult status values : StateM Mirror Unit) := by
  cases status with
  | success => exact .forM (fun value => .bind (follows_applyValue value) fun _ => .pure _) values
  | notFound => exact .forM (fun value => .bind (follows_change _) fun _ => .pure _) values
  | other code => exact .pure _

theorem follows_handle (message : Message) :
    Follows (Receiver.handle message : Run Unit)
      (Receiver.handle message : StateM Mirror Unit) := by
  cases message with
  | valueChanged updates =>
    exact .forM (fun update => .bind (follows_applyUpdate update) fun _ => .pure _) updates
  | valueRemoved ids tokens =>
    exact .forM (fun (id, token?) => follows_applyRemoval id token?) _
  | result sequence status values =>
    exact .bind (follows_applyResult status values) fun _ => follows_answered _ _
  | _ => exact .pure _

/-- Messages that a session carries out are messages that a mirror receives. -/
theorem reflects_messages (h : Reflects outbox before s r) (messages : List Message) (fuel : Nat) :
    Reflects outbox before
      ((messages.forM Client.carryOut : Run Unit) (Run.carryOut fuel) s).2
      (r.receive messages) := by
  induction messages generalizing s r with
  | nil => exact h
  | cons message rest ih =>
    have hbegan : s.Keeps (s.record (.began message)) := ⟨rfl, rfl, rfl, rfl, fun hs => hs⟩
    have hhandled := (follows_handle message fuel outbox before _ r (h.keeps hbegan)).2
    have hended (t : Session) : t.Keeps (t.record (.ended message)) :=
      ⟨rfl, rfl, rfl, rfl, fun hs => hs⟩
    exact ih (hhandled.keeps (hended _))

/-! ## Nothing is echoed -/

namespace Mirror

/-- What becomes of messages, and what is sent because of them. -/
structure Unechoed (r : Mirror) (messages : List Message) : Prop where
  grows : (r.receive messages).quiet.events = r.quiet.events ++ r.news messages
  remote : ∀ event ∈ r.news messages, event.origin = .remote
  /-- The authority is told of each value that its removals erased, one after the other. -/
  told : (r.news messages).filterMap Event.message? =
    (r.erasures messages).flatten.map fun id => .valueRemoved [id] [id.token]
  /-- A removal tells of no value after one that it lies below. -/
  deepestFirst : ∀ ids ∈ r.erasures messages, ids.Pairwise fun x y => y.startsWith x = false
  /-- What a message takes away was there before and is not there afterwards, and each value that is
  so is told of once. -/
  once {before after : List Message} {message : Message} :
    messages = before ++ message :: after → message.removals ≠ [] →
      ((r.receive before).quiet.store.erasures message.removals).flatten.Perm
        ((r.receive before).quiet.store.gone (r.receive (before ++ [message])).quiet.store)
  /-- Nothing else is said, whatever updates and directives bring about. -/
  silent : (∀ message ∈ messages, message.removals = []) →
    (r.news messages).filterMap Event.message? = []
  /-- A client puts just this into its outbox while nobody else acts on its store. -/
  enqueued {s : Session} (fuel : Nat) : s.Attended → s.store = r.quiet.store →
    s.filter = r.filter →
      let after := ((messages.forM Client.carryOut : Run Unit) (Run.carryOut fuel) s).2
      after.store = (r.receive messages).quiet.store ∧
        after.wire.outbox.messages = s.wire.outbox.messages ++
          (r.erasures messages).flatten.map fun id => .valueRemoved [id] [id.token]

variable {r : Mirror} {messages : List Message}

theorem receive_append (before after : List Message) :
    r.receive (before ++ after) = (r.receive before).receive after :=
  List.foldl_append

/-- Whatever the store holds and whatever the messages are, only removals are sent back. -/
theorem unechoed {declared : List Schema} (h : r.quiet.store.Reachable declared)
    (messages : List Message) : r.Unechoed messages := by
  obtain ⟨-, new, hnew, hechoes⟩ := passes_receive h.indexed messages
  have hnews : r.news messages = new := by rw [news, hnew, List.drop_left]
  have htold := hechoes.messages
  constructor
  · rw [hnews, hnew]
  · rw [hnews]
    exact hechoes.remote
  · rw [hnews, htold]
  · exact fun ids hids => pairwise_erasures h.indexed hids
  · rintro before after message - hremovals
    have hbefore := (passes_receive h.indexed before).indexed
    rw [receive_append, store_removals hbefore hremovals]
    exact hbefore.erasures_perm message.removals
  · intro hsilent
    rw [hnews, htold, erasures_eq_nil hsilent]
    rfl
  · intro s fuel hattended hstore hfilter
    have hreflects : Reflects s.wire.outbox.messages r.quiet.events s r :=
      ⟨hattended, hstore, hfilter, [], by simp, by simp⟩
    obtain ⟨-, hafter, -, new', hnew', houtbox⟩ := reflects_messages hreflects messages fuel
    obtain rfl : new' = new := List.append_cancel_left (hnew'.symm.trans hnew)
    exact ⟨hafter, by rw [houtbox, htold]⟩

/-- Values that are removed with what lies below them, a directive that takes a whole instance away,
and a result that finds nothing. -/
theorem unechoed_instances :
    let changes : List Change := [
      .declareContainer ⟨⟨["c"]⟩, .ordered, [⟨⟨["c", "+", "level"]⟩, .text "info", .readWrite⟩]⟩,
      .addKey ⟨["c"]⟩ "k" .local, .set ⟨["a"]⟩ (.bool true) .local,
      .set ⟨["a", "b"]⟩ (.bool true) .local]
    let q := Quiet.after {} changes
    let r : Mirror := { filter := { app := "A" }, quiet := q }
    let messages : List Message := [
      .valueChanged [.addKey ⟨["c"]⟩ "l", .removeKey ⟨["c"]⟩ "k"], .valueRemoved [⟨["a"]⟩] [],
      .result 7 .notFound [⟨⟨["c", "l"]⟩, .readWrite, .unset⟩]]
    let sent : List Message := [
      .removal [⟨["a", "b"]⟩], .removal [⟨["a"]⟩], .removal [⟨["c", "l", "level"]⟩],
      .removal [⟨["c", "l"]⟩]]
    let s : Session :=
      { (Session.fresh {}).seatClient { app := "A" } with store := q.store, filter := r.filter }
    q.store.Reachable (Quiet.declaredBy changes) ∧ s.Attended ∧
      (r.news messages).filterMap Event.message? = sent ∧
        ((messages.forM Client.carryOut : Run Unit) (Run.carryOut 9) s).2.wire.outbox.messages =
          sent := by
  intro changes q r messages sent s
  have hreachable : q.store.Reachable (Quiet.declaredBy changes) := Quiet.reachable_after changes
  have hr : r.Unechoed messages := unechoed hreachable messages
  have hattended : s.Attended := by
    refine ⟨⟨_, rfl, rfl, nofun⟩, [.observer { name := Observer.main }], [], rfl, ?_⟩
    intro listener hlistener
    exact ⟨_, List.mem_singleton.mp hlistener, nofun⟩
  have hsent : (r.erasures messages).flatten.map (fun id => Message.valueRemoved [id] [id.token]) =
      sent := by
    decide +kernel
  refine ⟨hreachable, hattended, hr.told.trans hsent, ?_⟩
  rw [(hr.enqueued 9 hattended rfl rfl).2, hsent]
  rfl

end Mirror

end ValueTree
