import ValueTree.Proofs.Session.Order
import ValueTree.Proofs.Session.Orderly
import ValueTree.Proofs.Sync.Outbox

/-!
# What a listener is handed

A listener that is registered throughout is handed every event of every change once, however the
callbacks of others nest and whatever they do to the store. What it does with the events is to be
seen in the log, or in the outbox.
-/

namespace ValueTree

/-! ## Callbacks that spare a listener -/

/-- A command that works on the store and on observers, but does not take a listener off. -/
inductive Command.Spares (h : Hearer) : Command → Prop
  | invalid (fault : Id.Fault) : Spares h (.invalid fault)
  | query (query : Query) : Spares h (.query query)
  | change (change : Change) : Spares h (.change change)
  | fragment (command : FragmentCommand) (text : String) : Spares h (.fragment command text)
  | observe {name : String} {only : Option Id} {reaction : List Command} {limit : Nat} :
    .observer name ≠ h → (∀ command ∈ reaction, command.Spares h) →
      Spares h (.observe name only reaction limit)
  | unobserve {name : String} : .observer name ≠ h → Spares h (.unobserve name)

def Listener.Spares (h : Hearer) : Listener → Prop
  | .observer o => ∀ command ∈ o.reaction, command.Spares h
  | .client => True
  | .loader _ => True

def Callback.Spares (h : Hearer) : Callback → Prop
  | .react _ reaction _ => ∀ command ∈ reaction, command.Spares h
  | .trigger _ => True

/-! ## What is to be seen -/

/-- The event that an observer wrote into the log. -/
def LogEntry.heardBy? (name : String) : LogEntry → Option Event
  | event e => if name = Observer.main then some e else none
  | heard other e => if other = name then some e else none
  | _ => none

def Observer.attends (o : Observer) (event : Event) : Bool :=
  o.only.isNone || o.only = some event.id

namespace Session

def heardBy (s : Session) (name : String) : List Event := s.log.filterMap (·.heardBy? name)

/-- From one session to another, a listener has done what it does with these events: an observer has
written them into the log, and the client has put the messages that they make into the outbox. -/
structure Shows (s : Session) (l : Listener) (t : Session) (events : List Event) : Prop where
  heard (o : Observer) : l = .observer o →
    t.heardBy o.name = s.heardBy o.name ++ events.filter o.attends
  enqueued : l = .client →
    t.wire.outbox.messages = s.wire.outbox.messages ++ events.filterMap Event.message?

variable {l : Listener} {s t u : Session} {events events' : List Event}

theorem Shows.nothing (hlog : t.log = s.log) (hwire : t.wire = s.wire) : s.Shows l t [] where
  heard o _ := by simp [heardBy, hlog]
  enqueued _ := by simp [hwire]

theorem Shows.trans (h : s.Shows l t events) (h' : t.Shows l u events') :
    s.Shows l u (events ++ events') where
  heard o ho := by rw [h'.heard o ho, h.heard o ho, List.filter_append, List.append_assoc]
  enqueued hl := by
    rw [h'.enqueued hl, h.enqueued hl, List.filterMap_append, List.append_assoc]

end Session

/-! ## Listeners that stay -/

/-- A listener stands under a number, once and under no other, and no callback takes it off. -/
structure Registry.Holds (k : Nat) (l : Listener) (r : Registry Listener) : Prop where
  listed : ∃ before after, r.entries = before ++ (k, l) :: after ∧
    ∀ entry ∈ before ++ after, entry.1 ≠ k ∧ entry.2.hearer ≠ l.hearer
  spares : ∀ entry ∈ r.entries, entry.2.Spares l.hearer
  number : k < r.next

namespace Registry.Holds

variable {k : Nat} {l other : Listener} {r : Registry Listener} {number : Nat}

theorem detach (h : r.Holds k l) (hne : number ≠ k) : (r.detach number).Holds k l where
  listed := by
    obtain ⟨before, after, hentries, hothers⟩ := h.listed
    refine ⟨before.filter (·.1 ≠ number), after.filter (·.1 ≠ number), ?_, ?_⟩
    · simp [Registry.detach, hentries, hne.symm]
    · intro entry hmem
      rw [← List.filter_append] at hmem
      exact hothers entry (List.mem_filter.mp hmem).1
  spares entry hmem := h.spares entry (List.mem_filter.mp hmem).1
  number := h.number

theorem detachAll (h : r.Holds k l) {seats : List LoaderSeat}
    (hne : ∀ seat ∈ seats, seat.listener ≠ k) :
    (seats.foldl (fun r seat => r.detach seat.listener) r).Holds k l := by
  induction seats generalizing r with
  | nil => exact h
  | cons seat rest ih =>
    exact ih (h.detach (hne seat List.mem_cons_self))
      fun seat hmem => hne seat (List.mem_cons_of_mem _ hmem)

theorem subscribe (h : r.Holds k l) (hne : other.hearer ≠ l.hearer)
    (hspares : other.Spares l.hearer) : (r.subscribe other).2.Holds k l where
  listed := by
    obtain ⟨before, after, hentries, hothers⟩ := h.listed
    refine ⟨before, after ++ [(r.next, other)], by simp [Registry.subscribe, hentries], ?_⟩
    intro entry hmem
    rw [← List.append_assoc] at hmem
    rcases List.mem_append.mp hmem with hold | hnew
    · exact hothers entry hold
    · obtain rfl := List.mem_singleton.mp hnew
      exact ⟨Nat.ne_of_gt h.number, hne⟩
  spares entry hmem := by
    rcases List.mem_append.mp hmem with hold | hnew
    · exact h.spares entry hold
    · obtain rfl := List.mem_singleton.mp hnew
      exact hspares
  number := Nat.lt_succ_of_lt h.number

end Registry.Holds

namespace Session

variable {k : Nat} {l : Listener} {s t u : Session} {name : String}

/-- No handle and no loader that goes takes the listener along. -/
structure Retains (s : Session) (k : Nat) (l : Listener) : Prop where
  listeners : s.listeners.Holds k l
  handles : ∀ entry ∈ s.handles, entry.2 = k → l.hearer = .observer entry.1
  loaders : ∀ seat ∈ s.loaders, seat.listener = k → seat.tenure.released = false
  client : l = .client → s.client.isSome = true

theorem Retains.same (hs : s.Retains k l) (hlisteners : t.listeners = s.listeners)
    (hhandles : t.handles = s.handles) (hloaders : t.loaders = s.loaders)
    (hclient : t.client = s.client) : t.Retains k l where
  listeners := hlisteners ▸ hs.listeners
  handles := hhandles ▸ hs.handles
  loaders := hloaders ▸ hs.loaders
  client := hclient ▸ hs.client

/-- What the listener has to do with stays as it is. -/
structure Aside (s : Session) (k : Nat) (l : Listener) (t : Session) : Prop where
  store : t.store = s.store
  history : t.history = s.history
  shows : s.Shows l t []
  retains : s.Retains k l → t.Retains k l

theorem Aside.refl (s : Session) : s.Aside k l s := ⟨rfl, rfl, .nothing rfl rfl, id⟩

theorem Aside.trans (h : s.Aside k l t) (h' : t.Aside k l u) : s.Aside k l u where
  store := h'.store.trans h.store
  history := h'.history.trans h.history
  shows := h.shows.trans h'.shows
  retains hs := h'.retains (h.retains hs)

theorem aside_write {entry : LogEntry}
    (hentry : ∀ o, l = .observer o → entry.heardBy? o.name = none) :
    s.Aside k l (s.write entry) where
  store := rfl
  history := rfl
  shows.heard o ho := by simp [heardBy, write, hentry o ho]
  shows.enqueued _ := (List.append_nil _).symm
  retains hs := hs.same rfl rfl rfl rfl

theorem aside_countUse : s.Aside k l (s.countUse name) :=
  ⟨rfl, rfl, .nothing rfl rfl, fun hs => hs.same rfl rfl rfl rfl⟩

theorem aside_push (hl : l ≠ .client) (message : Message) :
    s.Aside k l { s with wire := s.wire.push message } where
  store := rfl
  history := rfl
  shows.heard _ _ := (List.append_nil _).symm
  shows.enqueued h := absurd h hl
  retains hs := hs.same rfl rfl rfl rfl

theorem aside_unobserve (hne : .observer name ≠ l.hearer) : s.Aside k l (s.unobserve name) := by
  unfold unobserve
  split
  · exact .refl s
  · rename_i number hlookup
    refine ⟨rfl, rfl, .nothing rfl rfl, fun hs => ?_⟩
    obtain ⟨before, after, hhandles, -⟩ := List.lookup_eq_some_iff.mp hlookup
    have hnumber : number ≠ k := by
      intro heq
      have hmem : (name, number) ∈ s.handles := by simp [hhandles]
      exact hne (hs.handles _ hmem heq).symm
    refine ⟨hs.listeners.detach hnumber, fun entry hmem => ?_, hs.loaders, hs.client⟩
    exact hs.handles entry (List.mem_filter.mp hmem).1

theorem aside_observe {o : Observer} (hne : .observer o.name ≠ l.hearer)
    (hspares : ∀ command ∈ o.reaction, command.Spares l.hearer) : s.Aside k l (s.observe o) := by
  let subscribed : Session := { s with listeners := (s.listeners.subscribe (.observer o)).2 }
  have hsubscribed : s.Aside k l subscribed :=
    ⟨rfl, rfl, .nothing rfl rfl, fun hs =>
      ⟨hs.listeners.subscribe hne hspares, hs.handles, hs.loaders, hs.client⟩⟩
  have hleft : s.Aside k l (subscribed.unobserve o.name) :=
    hsubscribed.trans (aside_unobserve hne)
  refine ⟨hleft.store, hleft.history, ⟨hleft.shows.heard, hleft.shows.enqueued⟩, fun hs => ?_⟩
  have hretains := hleft.retains hs
  refine ⟨hretains.listeners, fun entry hmem hentry => ?_, hretains.loaders, hretains.client⟩
  rcases List.mem_append.mp hmem with hold | hnew
  · exact hretains.handles entry hold hentry
  · obtain rfl := List.mem_singleton.mp hnew
    exact absurd hentry (Nat.ne_of_gt hs.listeners.number)

theorem aside_tendLoader {f : Tenure → Tenure}
    (hf : ∀ tenure, (f tenure).released = tenure.released) (serial : Nat) :
    s.Aside k l (s.tendLoader serial f) := by
  refine ⟨rfl, rfl, .nothing rfl rfl, fun hs => ?_⟩
  let tended := s.loaders.map fun seat =>
    if seat.serial = serial then { seat with tenure := f seat.tenure } else seat
  have htended : ∀ seat ∈ tended, seat.listener = k → seat.tenure.released = false := by
    intro seat hmem hseat
    obtain ⟨old, hold, rfl⟩ := List.mem_map.mp hmem
    split at hseat
    · rw [if_pos ‹_›]
      exact (hf _).trans (hs.loaders old hold hseat)
    · rw [if_neg ‹_›]
      exact hs.loaders old hold hseat
  refine ⟨hs.listeners.detachAll fun seat hmem hseat => ?_, hs.handles, fun seat hmem => ?_,
    hs.client⟩
  · obtain ⟨hseated, hover⟩ := List.mem_filter.mp hmem
    simp [Tenure.isOver, htended seat hseated hseat] at hover
  · exact htended seat (List.mem_filter.mp hmem).1

/-! ## How far a listener has come -/

/-- What has come to pass since a session in the past, with the events that the listener still
waits for. -/
structure Told (past : Session) (k : Nat) (l : Listener) (s : Session) (owed : List Event) :
    Prop where
  retains : s.Retains k l
  unfolds : ∃ marks, s.history = past.history ++ marks ∧
    Unfolds l.hearer past.store marks s.store owed ∧
      past.Shows l s (History.handed l.hearer marks)

variable {past : Session} {owed : List Event} {event : Event}

theorem Told.start (h : s.Retains k l) : s.Told k l s [] where
  retains := h
  unfolds := ⟨[], (List.append_nil _).symm, .start, .nothing rfl rfl⟩

theorem Told.aside (h : past.Told k l s owed) (haside : s.Aside k l t) : past.Told k l t owed where
  retains := haside.retains h.retains
  unfolds := by
    obtain ⟨marks, hhistory, hunfolds, hshows⟩ := h.unfolds
    refine ⟨marks, haside.history.trans hhistory, haside.store ▸ hunfolds, ?_⟩
    have := hshows.trans haside.shows
    rwa [List.append_nil] at this

theorem Told.change {store : Store} {events : List Event} (h : past.Told k l s owed)
    (hturn : s.store.Turn store events) :
    past.Told k l { s.mark (.made events) with store } (events ++ owed) where
  retains := h.retains.same rfl rfl rfl rfl
  unfolds := by
    obtain ⟨marks, hhistory, hunfolds, hshows⟩ := h.unfolds
    refine ⟨marks ++ [.made events], ?_, hunfolds.change hturn, ?_⟩
    · rw [← List.append_assoc, ← hhistory]
      rfl
    · rw [History.handed_change]
      exact ⟨hshows.heard, hshows.enqueued⟩

theorem Told.pass {hearer : Hearer} (h : past.Told k l s owed) (hne : hearer ≠ l.hearer)
    (event : Event) : past.Told k l (s.mark (.handed hearer event)) owed where
  retains := h.retains.same rfl rfl rfl rfl
  unfolds := by
    obtain ⟨marks, hhistory, hunfolds, hshows⟩ := h.unfolds
    refine ⟨marks ++ [.handed hearer event], ?_, hunfolds.pass hne, ?_⟩
    · rw [← List.append_assoc, ← hhistory]
      rfl
    · rw [History.handed_pass hne]
      exact ⟨hshows.heard, hshows.enqueued⟩

/-- The listener itself is handed an event, and does with it what it does. -/
theorem Told.hand (h : past.Told k l s (event :: owed))
    (hshows : s.Shows l t [event]) (hstore : t.store = s.store)
    (hhistory : t.history = s.history ++ [.handed l.hearer event]) (hretains : t.Retains k l) :
    past.Told k l t owed where
  retains := hretains
  unfolds := by
    obtain ⟨marks, hmarks, hunfolds, hbefore⟩ := h.unfolds
    refine ⟨marks ++ [.handed l.hearer event], ?_, hstore ▸ hunfolds.hand, ?_⟩
    · rw [hhistory, hmarks, List.append_assoc]
    · rw [History.handed_hand]
      exact hbefore.trans hshows

end Session

/-! ## Runs -/

section

variable (k : Nat) (l : Listener) (past : Session)

/-- Callbacks that leave a listener as far as it is, given that they spare it. -/
def Faithful (calls : Callback → Session → Session) : Prop :=
  ∀ (callback : Callback) (s : Session) (owed : List Event), callback.Spares l.hearer →
    past.Told k l s owed → past.Told k l (calls callback s) owed

/-- Leaves a listener as far as it is: what it is told of meanwhile it was not waiting for. -/
def Abides {α : Type} (x : Run α) : Prop :=
  ∀ calls, Faithful k l past calls → ∀ (s : Session) (owed : List Event),
    past.Told k l s owed → past.Told k l (x calls s).2 owed

end

variable {k : Nat} {l : Listener} {past s : Session} {α β : Type} {owed : List Event}
  {calls : Callback → Session → Session}

theorem Abides.bind {x : Run α} {f : α → Run β} (hx : Abides k l past x)
    (hf : ∀ a, Abides k l past (f a)) : Abides k l past (x >>= f) :=
  fun calls hcalls _ owed hs => hf _ calls hcalls _ owed (hx calls hcalls _ owed hs)

namespace Run

theorem abides_pure (a : α) : Abides k l past (pure a : Run α) := fun _ _ _ _ hs => hs

theorem abides_get : Abides k l past (get : Run Session) := fun _ _ _ _ hs => hs

theorem abides_modify {f : Session → Session} (hf : ∀ s : Session, s.Aside k l (f s)) :
    Abides k l past (modify f : Run Unit) :=
  fun _ _ s _ hs => hs.aside (hf s)

theorem abides_forM {xs : List α} {f : α → Run PUnit} (hf : ∀ a ∈ xs, Abides k l past (f a)) :
    Abides k l past (xs.forM f) := by
  induction xs with
  | nil => exact abides_pure _
  | cons x rest ih =>
    exact .bind (hf x List.mem_cons_self) fun _ => ih fun a ha => hf a (List.mem_cons_of_mem _ ha)

theorem abides_call {callback : Callback} (h : callback.Spares l.hearer) :
    Abides k l past (call callback) :=
  fun _ hcalls s owed hs => hcalls callback s owed h hs

theorem abides_within (name : String) (reply : Reply) :
    Abides k l past (log (.within name reply)) :=
  abides_modify fun _ => Session.aside_write fun _ _ => rfl

/-! ## Handing events on -/

theorem abides_ordered (serial : Nat) (event : Event) :
    Abides k l past (ordered serial event) := by
  refine .bind abides_get fun s => ?_
  split
  · split
    · exact abides_call trivial
    · exact abides_pure _
  · exact abides_pure _

theorem abides_hear {other : Listener} (hne : other.hearer ≠ l.hearer)
    (hspares : other.Spares l.hearer) (event : Event) : Abides k l past (hear event other) := by
  refine .bind (fun _ _ s _ hs => hs.pass hne event) fun _ => ?_
  cases other with
  | observer o =>
    dsimp only
    unfold observed
    split
    · refine .bind (abides_modify fun _ => Session.aside_write fun o' ho' => ?_) fun _ =>
        abides_call hspares
      have hname : o.name ≠ o'.name := by
        intro heq
        exact hne (by rw [ho', Listener.hearer, Listener.hearer, heq])
      split
      · rename_i hmain
        exact if_neg fun h => hname (hmain.trans h.symm)
      · exact if_neg hname
    · exact abides_pure _
  | client =>
    have hl : l ≠ .client := by
      rintro rfl
      exact hne rfl
    refine .bind abides_get fun s => ?_
    split
    · split
      · exact abides_modify fun _ => Session.aside_push hl _
      · exact abides_pure _
    · exact abides_pure _
  | loader serial => exact abides_ordered serial event

/-- An observer writes down what it was waiting for before its reaction sets in. -/
theorem told_hear_observer {o : Observer} (hcalls : Faithful k (.observer o) past calls)
    {event : Event} (hs : past.Told k (.observer o) s (event :: owed)) :
    past.Told k (.observer o) (hear event (.observer o) calls s).2 owed := by
  have hspares : ∀ command ∈ o.reaction, command.Spares (.observer o.name) := by
    obtain ⟨before, after, hentries, -⟩ := hs.retains.listeners.listed
    exact hs.retains.listeners.spares (k, .observer o) (by simp [hentries])
  let marked := s.mark (.handed (.observer o.name) event)
  change past.Told k (.observer o) (observed o event calls marked).2 owed
  unfold observed
  split
  · have hattends : o.attends event = true := ‹_›
    refine hcalls (.react o.name o.reaction o.limit) _ owed hspares
      (hs.hand ⟨fun o' ho' => ?_, nofun⟩ rfl rfl (hs.retains.same rfl rfl rfl rfl))
    obtain rfl : o = o' := Listener.observer.inj ho'
    have hheard : LogEntry.heardBy? o.name
        (if o.name = Observer.main then .event event else .heard o.name event) = some event := by
      split
      · exact if_pos ‹_›
      · exact if_pos rfl
    rw [List.filter_cons_of_pos hattends, List.filter_nil]
    exact List.filterMap_append.trans (by simp [Session.heardBy, marked, Session.mark, hheard])
  · have hattends : ¬o.attends event = true := ‹_›
    refine hs.hand ⟨fun o' ho' => ?_, nofun⟩ rfl rfl (hs.retains.same rfl rfl rfl rfl)
    obtain rfl : o = o' := Listener.observer.inj ho'
    rw [List.filter_cons_of_neg hattends, List.filter_nil, List.append_nil]
    rfl

theorem told_hear_client {event : Event} (hs : past.Told k .client s (event :: owed)) :
    past.Told k .client (hear event .client calls s).2 owed := by
  let marked := s.mark (.handed .client event)
  change past.Told k .client (relayed event calls marked).2 owed
  have hseated : marked.client.isSome = true := hs.retains.client rfl
  unfold relayed
  rw [get_bind, if_pos hseated]
  cases hmessage : event.message? with
  | none =>
    refine hs.hand ⟨nofun, fun _ => ?_⟩ rfl rfl (hs.retains.same rfl rfl rfl rfl)
    rw [List.filterMap_cons_none hmessage, List.filterMap_nil, List.append_nil]
    rfl
  | some message =>
    refine hs.hand ⟨nofun, fun _ => ?_⟩ rfl rfl (hs.retains.same rfl rfl rfl rfl)
    rw [List.filterMap_cons_some hmessage, List.filterMap_nil]
    exact Wire.messages_push message

theorem told_hear (hcalls : Faithful k l past calls) {event : Event}
    (hs : past.Told k l s (event :: owed)) : past.Told k l (hear event l calls s).2 owed := by
  cases l with
  | observer o => exact told_hear_observer hcalls hs
  | client => exact told_hear_client hs
  | loader serial =>
    have hmarked : past.Told k (.loader serial) (s.mark (.handed (.loader serial) event)) owed :=
      hs.hand ⟨nofun, nofun⟩ rfl rfl (hs.retains.same rfl rfl rfl rfl)
    exact abides_ordered serial event calls hcalls _ owed hmarked

theorem told_deliver (hcalls : Faithful k l past calls) {event : Event}
    (hs : past.Told k l s (event :: owed)) : past.Told k l (deliver event calls s).2 owed := by
  obtain ⟨before, after, hentries, hothers⟩ := hs.retains.listeners.listed
  have hspares := hs.retains.listeners.spares
  rw [hentries] at hspares
  have habides (entries : List (Nat × Listener)) (hsub : entries ⊆ before ++ after) :
      Abides k l past (((entries.map (·.2)).forM (hear event) : Run Unit)) := by
    refine abides_forM fun other hother => ?_
    obtain ⟨entry, hmem, rfl⟩ := List.mem_map.mp hother
    have hentry := hsub hmem
    refine abides_hear (hothers entry hentry).2 (hspares entry ?_) event
    rw [List.mem_append] at hentry ⊢
    exact hentry.imp_right (List.mem_cons_of_mem _)
  have hsnapshot : s.listeners.snapshot = before.map (·.2) ++ l :: after.map (·.2) := by
    simp [Registry.snapshot, hentries]
  unfold deliver
  rw [get_bind, hsnapshot, List.forM_eq_forM, List.forM_append]
  have hbefore := habides before (List.subset_append_left ..) calls hcalls s _ hs
  exact habides after (List.subset_append_right ..) calls hcalls _ owed (told_hear hcalls hbefore)

theorem told_forM_deliver (hcalls : Faithful k l past calls) (events : List Event)
    (hs : past.Told k l s (events ++ owed)) :
    past.Told k l ((events.forM deliver : Run Unit) calls s).2 owed := by
  induction events generalizing s with
  | nil => exact hs
  | cons event rest ih => exact ih (told_deliver hcalls hs)

/-- A change tells the listener of all its events before it is over. -/
theorem abides_change {step : Store → Outcome α}
    (hstep : ∀ s : Store, s.Turn (step s).store (step s).events) :
    Abides k l past (Host.change step : Run (Except StoreError α)) :=
  fun _ hcalls s _ hs => told_forM_deliver hcalls (step s.store).events (hs.change (hstep s.store))

theorem closed_abides : Closed fun {_} x => Abides k l past x where
  pure := abides_pure
  bind := .bind
  store := .bind abides_get fun _ => abides_pure _
  change := abides_change

/-! ## Commands and callbacks -/

theorem abides_act {command : Command} (h : command.Spares l.hearer) :
    Abides k l past (act command) := by
  cases h with
  | invalid fault => exact abides_pure _
  | query query => exact .bind abides_get fun _ => abides_pure _
  | change c => exact .bind (closed_abides.perform c) fun _ => abides_pure _
  | fragment command text => exact closed_abides.fragment command text
  | observe hne hspares =>
    exact .bind (abides_modify fun _ => Session.aside_observe hne hspares) fun _ => abides_pure _
  | unobserve hne =>
    exact .bind abides_get fun _ =>
      .bind (abides_modify fun _ => Session.aside_unobserve hne) fun _ => abides_pure _

theorem abides_react {name : String} {reaction : List Command} {limit : Nat}
    (h : ∀ command ∈ reaction, command.Spares l.hearer) :
    Abides k l past (react name reaction limit) := by
  refine .bind abides_get fun s => ?_
  split
  · refine .bind (abides_modify fun _ => Session.aside_countUse) fun _ =>
      abides_forM fun command hcommand => ?_
    exact .bind (abides_act (h command hcommand)) fun _ => abides_within _ _
  · exact abides_pure _

theorem abides_holdingLoader {x : Run α} (hx : Abides k l past x) (serial : Nat) :
    Abides k l past (holdingLoader serial x) :=
  have htend (f : Tenure → Tenure) (hf : ∀ tenure, (f tenure).released = tenure.released) :
      Abides k l past (modify (·.tendLoader serial f) : Run Unit) :=
    abides_modify fun _ => Session.aside_tendLoader hf serial
  .bind (htend Tenure.hold fun _ => rfl) fun _ => .bind hx fun _ =>
    .bind (htend Tenure.letGo fun _ => rfl) fun _ => abides_pure _

theorem abides_perform {callback : Callback} (h : callback.Spares l.hearer) :
    Abides k l past (perform callback) := by
  cases callback with
  | react name reaction limit => exact abides_react h
  | trigger serial =>
    refine .bind abides_get fun s => ?_
    split
    · rename_i loader _
      refine abides_holdingLoader (.bind abides_get fun s => ?_) serial
      exact .bind (closed_abides.trigger loader s.files) fun _ => abides_pure _
    · exact abides_pure _

/-- Callbacks leave the listener as far as it is, however deep they nest. -/
theorem faithful_carryOut (fuel : Nat) : Faithful k l past (carryOut fuel) := by
  induction fuel with
  | zero =>
    exact fun _ _ _ _ hs =>
      hs.aside ⟨rfl, rfl, .nothing rfl rfl, fun hs => hs.same rfl rfl rfl rfl⟩
  | succ fuel ih => exact fun _ s owed hspares hs => abides_perform hspares _ ih s owed hs

end Run

/-! ## Whole commands -/

namespace Session

open History

/-- What has come to pass in a session since it was another. -/
def since (past t : Session) : List Mark := t.history.drop past.history.length

/-- What a listener was handed on the way from one session to another. -/
structure HandedOn (past : Session) (k : Nat) (l : Listener) (t : Session) : Prop where
  history : t.history = past.history ++ past.since t
  /-- It is there to the end. -/
  retains : t.Retains k l
  /-- The events of a change are handed on before those that were waiting by then. -/
  stack : Unfolds l.hearer past.store (past.since t) t.store []
  /-- It is handed every event once. -/
  once : (handed l.hearer (past.since t)).Perm (made (past.since t))
  /-- It is handed the events of one change in order. -/
  batches (events : List Event) : .made events ∈ past.since t →
    events.Sublist (handed l.hearer (past.since t))
  /-- What it was handed is to be seen in the log or in the outbox. -/
  shows : past.Shows l t (handed l.hearer (past.since t))
  /-- The payload under an id is as the last change has it. -/
  made (x : Id) : t.store.payload? x =
    Event.lastWord x (made (past.since t)) (past.store.payload? x)
  /-- Events that take effect in turn are handed on in the order in which they did. -/
  inOrder (p : Event → Bool) : InTurn l.hearer p (past.since t) →
    (handed l.hearer (past.since t)).filter p = (History.made (past.since t)).filter p
  /-- Events that only one of the changes makes take effect in turn. -/
  lone (p : Event → Bool) : (past.since t).countP (·.events.any p) ≤ 1 →
    InTurn l.hearer p (past.since t)
  /-- If the events about an id take effect in turn, the last one that is handed on agrees with the
  store. -/
  agrees (x : Id) : InTurn l.hearer (Event.concerns x) (past.since t) →
    t.store.payload? x =
      Event.lastWord x (handed l.hearer (past.since t)) (past.store.payload? x)
  /-- If then the last event makes a message, the last message about the id that the client puts
  into the outbox agrees with the store as well. -/
  sent (x : Id) (event : Event) : l = .client →
    InTurn l.hearer (Event.concerns x) (past.since t) →
      ((handed l.hearer (past.since t)).filter (Event.concerns x)).getLast? = some event →
        event.message?.isSome = true → ∃ messages,
          t.wire.outbox.messages = past.wire.outbox.messages ++ messages ∧
            (messages.filterMap (·.verdict? x)).getLast? = some (t.store.payload? x)

variable {k : Nat} {l : Listener} {past t : Session}

theorem Told.complete (h : past.Told k l t []) (hstore : past.store.Indexed) :
    past.HandedOn k l t := by
  obtain ⟨marks, hhistory, hunfolds, hshows⟩ := h.unfolds
  have hsince : past.since t = marks := by rw [since, hhistory, List.drop_left]
  have hagrees (x : Id) (hturn : InTurn l.hearer (Event.concerns x) marks) :=
    hunfolds.payload_handed hstore hturn
  constructor
  · rwa [hsince]
  · exact h.retains
  · rwa [hsince]
  · rw [hsince]
    simpa using hunfolds.perm
  · intro events hmem
    rw [hsince] at hmem ⊢
    simpa using hunfolds.sublist hmem
  · rwa [hsince]
  · intro x
    rw [hsince]
    exact hunfolds.payload_made hstore
  · intro p hturn
    rw [hsince] at hturn ⊢
    simpa using hunfolds.filter_eq hturn
  · rw [hsince]
    exact fun p hlone => hunfolds.inTurn_of_lone hlone
  · intro x hturn
    rw [hsince] at hturn ⊢
    exact hagrees x hturn
  · intro x event hclient hturn hlast hmessage
    rw [hsince] at hturn hlast
    obtain ⟨message, hmessage⟩ := Option.isSome_iff_exists.mp hmessage
    refine ⟨_, hshows.enqueued hclient, ?_⟩
    rw [Event.verdict?_last hlast hmessage, Event.lastWord_of_last hlast, ← hagrees x hturn]

/-- Whatever is done to a store, and whatever callbacks do to it meanwhile, a listener that stays
hears of all that happens. Distinct ids are taken to have distinct tokens. -/
theorem handedOn {command : Command} (hstore : past.store.Indexed) (hl : past.Retains k l)
    (hcommand : command.Spares l.hearer) (fuel : Nat) :
    past.HandedOn k l (Run.act command (Run.carryOut fuel) past).2 :=
  have htold : past.Told k l (Run.act command (Run.carryOut fuel) past).2 [] :=
    Run.abides_act hcommand _ (Run.faithful_carryOut fuel) past [] (.start hl)
  htold.complete hstore

/-! ## Events that are overtaken -/

/-- A session with a client and a container of levels. An observer sets the level of the first key
that the container gets. -/
def eager : Session :=
  let levels : Schema := {
    id := ⟨["c"]⟩
    order := .ordered
    template := [{ id := ⟨["c", "+", "level"]⟩, payload := .text "info" }] }
  let observer : Observer := {
    name := "m"
    only := some ⟨["c"]⟩
    reaction := [.change (.set ⟨["c", "k", "level"]⟩ (.text "debug") .local)]
    limit := 1 }
  { ((Session.fresh {}).seatClient {}).observe observer with
    store := (Quiet.after {} [.declareContainer levels]).store }

/-- Everybody hears of the new level before the one that it replaces, and the outbox ends with the
old one. When the key goes, nobody is told so of the values below it. -/
theorem overtaken :
    let level : Id := ⟨["c", "k", "level"]⟩
    let keyAdded : Event := .keyAdded ⟨["c"]⟩ "k" .local
    let root : Event := .added ⟨⟨["c", "k"]⟩, .readWrite, .struct⟩ .local
    let info : Event := .added ⟨level, .readWrite, .text "info"⟩ .local
    let debug : Event := .changed ⟨level, .readWrite, .text "debug"⟩ .local
    let added := (eager.step (.change (.addKey ⟨["c"]⟩ "k" .local))).2
    let removed := (added.step (.change (.removeKey ⟨["c"]⟩ "k" .local))).2
    History.made (eager.since added) = [keyAdded, root, info, debug] ∧
      added.heardBy Observer.main = [keyAdded, debug, root, info] ∧
      added.store.payload? level = some (.text "debug") ∧
      (added.wire.outbox.messages.filterMap (·.verdict? level)).getLast? =
        some (some (.text "info")) ∧
      ((removed.heardBy Observer.main).filter (·.id = ⟨["c", "k"]⟩)).getLast? = some root ∧
      removed.store.has ⟨["c", "k"]⟩ = false := by
  decide +kernel

theorem handedOn_instances :
    let c : Id := ⟨["c"]⟩
    let added := (Run.act (.change (.addKey c "k" .local)) (Run.carryOut 9) eager).2
    eager.store.Indexed ∧ eager.Retains 1 .client ∧
      eager.Retains 0 (.observer { name := Observer.main }) ∧
      eager.HandedOn 1 .client added ∧
      eager.HandedOn 0 (.observer { name := Observer.main }) added ∧
      InTurn .client (Event.concerns ⟨["c", "k"]⟩) (eager.since added) := by
  intro c added
  have hstore : eager.store.Indexed := (Quiet.accounted_after _).indexed
  have hspares (h : Hearer) : ∀ entry ∈ eager.listeners.entries, entry.2.Spares h := by
    refine List.forall_mem_cons.mpr ⟨nofun, List.forall_mem_cons.mpr ⟨trivial, ?_⟩⟩
    refine List.forall_mem_cons.mpr ⟨?_, List.forall_mem_nil _⟩
    exact List.forall_mem_cons.mpr ⟨.change _, List.forall_mem_nil _⟩
  have hclient : eager.Retains 1 .client :=
    ⟨⟨⟨[_], [_], rfl, by decide⟩, hspares _, by decide⟩, by decide, nofun, fun _ => rfl⟩
  have hmain : eager.Retains 0 (.observer { name := Observer.main }) :=
    ⟨⟨⟨[], [_, _], rfl, by decide⟩, hspares _, by decide⟩, by decide, nofun, nofun⟩
  have hsent : eager.HandedOn 1 .client added := handedOn hstore hclient (.change _) 9
  exact ⟨hstore, hclient, hmain, hsent, handedOn hstore hmain (.change _) 9,
    hsent.lone _ (by decide +kernel)⟩

end Session

end ValueTree
