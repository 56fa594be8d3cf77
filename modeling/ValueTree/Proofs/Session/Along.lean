import ValueTree.Proofs.Session.Line

/-!
# Every run moves the line

A computation is tracked if what it does to a session is a path of the line, given that the
callbacks that it calls are tame.
-/

namespace ValueTree

variable {inner outer : ClientCommand → Prop} {s t : Session} {α β ε : Type}
  {carryOut : Callback → Session → Session}

/-- Moves the line, given that tame callbacks do. -/
def Tracked (inner outer : ClientCommand → Prop) {α : Type} (x : Run α) : Prop :=
  ∀ carryOut : Callback → Session → Session,
    (∀ callback s, callback.Tame inner → Along inner outer s (carryOut callback s)) →
      ∀ s : Session, Along inner outer s (x carryOut s).2

/-! ## Putting computations together -/

theorem Along.given (h : s.Tidy inner → Along inner outer s t) : Along inner outer s t where
  tidy hs := (h hs).tidy hs
  moves hs := (h hs).moves hs

theorem Tracked.bind {x : Run α} {f : α → Run β} (hx : Tracked inner outer x)
    (hf : ∀ a, Tracked inner outer (f a)) : Tracked inner outer (x >>= f) :=
  fun carryOut hcalls s => (hx carryOut hcalls s).trans (hf _ carryOut hcalls _)

namespace Run

theorem tracked_pure (a : α) : Tracked inner outer (pure a : Run α) := fun _ _ s => .refl s

theorem tracked_get : Tracked inner outer (get : Run Session) := fun _ _ s => .refl s

theorem tracked_modify {f : Session → Session} (hf : ∀ s, Along inner outer s (f s)) :
    Tracked inner outer (modify f : Run Unit) := fun _ _ s => hf s

theorem tracked_aside {f : Session → Session} (hf : ∀ s, (f s).client = s.client ∧
    (f s).wire = s.wire ∧ (f s).listeners = s.listeners) :
    Tracked inner outer (modify f : Run Unit) := by
  refine tracked_modify fun s => ?_
  obtain ⟨hclient, hwire, hlisteners⟩ := hf s
  exact .aside hclient hwire fun _ hmem => Or.inl (hlisteners ▸ hmem)

theorem tracked_forM {xs : List α} {f : α → Run PUnit} (hf : ∀ a ∈ xs, Tracked inner outer (f a)) :
    Tracked inner outer (xs.forM f) := by
  induction xs with
  | nil => exact tracked_pure _
  | cons x rest ih =>
    exact .bind (hf x List.mem_cons_self) fun _ => ih fun a ha => hf a (List.mem_cons_of_mem _ ha)

/-! ## Events and changes -/

theorem tracked_call {callback : Callback} (h : callback.Tame inner) :
    Tracked inner outer (call callback) := fun _ hcalls s => hcalls callback s h

theorem tracked_log (entry : LogEntry) : Tracked inner outer (log entry) :=
  tracked_aside fun _ => ⟨rfl, rfl, rfl⟩

theorem tracked_hear (event : Event) {listener : Listener} (h : listener.Tame inner) :
    Tracked inner outer (hear event listener) := by
  refine .bind (tracked_aside fun _ => ⟨rfl, rfl, rfl⟩) fun _ => ?_
  cases listener with
  | observer o =>
    dsimp only
    unfold observed
    split
    · exact .bind (tracked_log _) fun _ => tracked_call h
    · exact tracked_pure _
  | client =>
    refine .bind tracked_get fun s => ?_
    split
    · split
      · exact tracked_modify fun _ => .push _
      · exact tracked_pure _
    · exact tracked_pure _
  | loader serial =>
    refine .bind tracked_get fun s => ?_
    split
    · split
      · exact tracked_call trivial
      · exact tracked_pure _
    · exact tracked_pure _

theorem tracked_deliver (event : Event) : Tracked inner outer (deliver event) := by
  intro carryOut hcalls s
  refine .given fun hs => ?_
  have hall : Tracked inner outer (s.listeners.snapshot.forM (hear event)) := by
    refine tracked_forM fun listener hmem => ?_
    obtain ⟨entry, hentry, rfl⟩ := List.mem_map.mp hmem
    exact tracked_hear event (hs.listeners entry hentry)
  exact hall carryOut hcalls s

theorem tracked_change {step : Store → Outcome α} :
    Tracked inner outer (Host.change step : Run (Except StoreError α)) := by
  intro carryOut hcalls s
  have hrest : Tracked inner outer (do
      ((step s.store).events.forM deliver : Run Unit)
      pure (step s.store).result) :=
    .bind (tracked_forM fun event _ => tracked_deliver event) fun _ => tracked_pure _
  have hchanged : Along inner outer s
      { s.mark (.made (step s.store).events) with store := (step s.store).store } :=
    .aside rfl rfl fun _ => Or.inl
  exact hchanged.trans (hrest carryOut hcalls _)

theorem closed_tracked : Closed fun {_} x => Tracked inner outer x where
  pure := tracked_pure
  bind := .bind
  store := .bind tracked_get fun _ => tracked_pure _
  change _ := tracked_change

/-! ## Messages -/

theorem tracked_filter : Tracked inner outer (Receiver.filter : Run Filter) :=
  .bind tracked_get fun _ => tracked_pure _

theorem tracked_holdingClient {x : Run α} (hx : Tracked inner outer x) :
    Tracked inner outer (holdingClient x) :=
  .bind (tracked_modify fun _ => .tend _) fun _ => .bind hx fun _ =>
    .bind (tracked_modify fun _ => .tend _) fun _ => tracked_pure _

theorem tracked_record (deed : Deed Completion) :
    Tracked inner outer (Completes.record deed : Run Unit) :=
  tracked_aside fun _ => ⟨rfl, rfl, rfl⟩

/-- Whoever asks for the client gets one whose completions are tame. -/
theorem bind_client_tame {f : Client Completion → Run α}
    (hf : ∀ c : Client Completion, (∀ entry ∈ c.pending, entry.2.Tame inner) →
      Tracked inner outer (f c)) :
    Tracked inner outer ((Completes.client : Run (Client Completion)) >>= f) := by
  intro carryOut hcalls s
  refine .given fun hs => ?_
  cases hclient : s.client with
  | none =>
    have hnone : (Completes.client : Run (Client Completion)) carryOut s = (Client.new {}, s) := by
      cases s
      cases hclient
      rfl
    have hempty : (Client.new {} : Client Completion).pending = [] := rfl
    rw [bind_apply, hnone]
    exact hf _ (by simp [hempty]) carryOut hcalls s
  | some seat =>
    rw [bind_client hclient]
    exact hf _ (hs.pending hclient) carryOut hcalls s

theorem tracked_adjust {f : Client Completion → Client Completion}
    (hline : ∀ c w, (f c).line w = c.line w)
    (hpending : ∀ c, ∀ entry ∈ (f c).pending, entry ∈ c.pending ∨ entry.2.Tame inner) :
    Tracked inner outer (Completes.adjustClient f : Run Unit) :=
  tracked_modify fun _ => .adjust hline hpending

theorem tracked_take (n : UInt32) :
    Tracked inner outer (Completes.adjustClient (fun c => (c.take n).2) : Run Unit) :=
  tracked_adjust (fun _ _ => rfl) fun _ _ hmem => Or.inl (List.mem_filter.mp hmem).1

theorem tracked_onResult (n : UInt32) (ok : Bool) :
    Tracked inner outer (Client.onResult n ok : Run Unit) := by
  refine bind_client_tame fun c hc => .bind (tracked_take n) fun _ => ?_
  split
  · rename_i completion htaken
    refine .bind (tracked_record _) fun _ => .bind (tracked_log _) fun _ => tracked_call ?_
    obtain ⟨before, after, hpending, -⟩ := List.lookup_eq_some_iff.mp htaken
    exact hc (n, completion) (by simp [hpending])
  · exact tracked_pure _

theorem tracked_answered (n : UInt32) (ok : Bool) :
    Tracked inner outer (Receiver.answered n ok : Run Unit) := by
  refine .bind (tracked_log _) fun _ => .bind (tracked_record _) fun _ =>
    .bind tracked_get fun s => ?_
  split
  · split
    · exact tracked_holdingClient (tracked_onResult n ok)
    · exact tracked_pure _
  · exact tracked_pure _

theorem tracked_handle (message : Message) :
    Tracked inner outer (Receiver.handle message : Run Unit) := by
  cases message with
  | valueChanged updates =>
    exact tracked_forM fun update _ =>
      .bind (closed_tracked.applyUpdate tracked_filter update) fun _ => tracked_pure _
  | valueRemoved ids tokens => exact tracked_forM fun _ _ => closed_tracked.applyRemoval _ _
  | result n status values =>
    exact .bind (closed_tracked.applyResult tracked_filter status values) fun _ =>
      tracked_answered _ _
  | _ => exact tracked_pure _

theorem tracked_carryOut (message : Message) :
    Tracked inner outer (Client.carryOut message : Run Unit) :=
  .bind (tracked_record _) fun _ => .bind (tracked_handle message) fun _ => tracked_record _

/-! ## The wire -/

theorem tracked_received (bytes : List UInt8) :
    Tracked inner outer (Station.notify (.received bytes) : Run Unit) := by
  refine .bind tracked_get fun s => ?_
  split
  · refine tracked_modify fun s => .unseen (·.apart (.post _ _)) fun c => ?_
    rw [Client.line_post]
    exact congrArg (fun news => { c.line s.wire with news }) (List.append_nil _)
  · exact tracked_pure _

theorem lose_apply (s : Session) :
    ((Station.lose : Run Unit) carryOut s).2 =
      let closed := { s.wire with link := s.wire.link.close }
      let heard := s.wire.link.connected && s.client.isSome
      { s with wire := if heard then closed.post .disconnected else closed } := by
  obtain ⟨store, listeners, handles, uses, log, files, loaders, nextLoader, filter, client,
    ⟨agenda, ⟨connected, reachable, attempts, sent⟩, outbox, reconnector, framing⟩, journal⟩ := s
  cases connected <;> cases client <;> rfl

theorem tracked_lose : Tracked inner outer (Station.lose : Run Unit) := by
  intro carryOut _ s
  have hclosed (h : s.wire.Tidy) : { s.wire with link := s.wire.link.close }.Tidy := h.agenda rfl
  rw [lose_apply]
  dsimp only
  split
  · rename_i hup
    have hup : s.wire.link.connected = true := (Bool.and_eq_true_iff.mp hup).1
    refine .rewire (fun h => (hclosed h).apart (.post _ _)) fun _ _ =>
      ⟨[.lost], fun c => ?_, fun move hmem => ?_⟩
    · rw [Client.line_post]
      exact .single (.lose hup)
    · rw [List.mem_singleton.mp hmem]
      trivial
  · rename_i hdown
    refine .rewire hclosed fun hsome _ => ⟨[], fun c => ?_, Line.Move.within_nil⟩
    have hdown : s.wire.link.connected = false := by simpa [hsome] using hdown
    have hsame : c.line { s.wire with link := s.wire.link.close } = c.line s.wire := by
      simp [Client.line, Link.close, hdown, Wire.retries]
    rw [hsame]
    exact .nil _

end Run

/-! ## The client -/

namespace Client

open Run

theorem tracked_send (message : Message) : Tracked inner outer (send message : Run Unit) :=
  tracked_modify fun _ => .push message

theorem tracked_allocateSequence : Tracked inner outer (allocateSequence : Run UInt32) :=
  bind_client_tame fun _ _ => .bind (tracked_adjust (fun _ _ => rfl) fun _ _ => Or.inl) fun _ =>
    .bind (tracked_record _) fun _ => tracked_pure _

theorem tracked_registerCompletion {completion : Completion} (h : completion.Tame inner) :
    Tracked inner outer (registerCompletion completion : Run UInt32) := by
  refine bind_client_tame fun _ _ => .bind (tracked_adjust (fun _ _ => rfl) ?_) fun _ =>
    .bind (tracked_record _) fun _ => .bind (tracked_record _) fun _ => tracked_pure _
  intro c entry hmem
  rcases List.mem_append.mp hmem with hold | hnew
  · exact Or.inl (List.mem_filter.mp hold).1
  · rw [List.mem_singleton.mp hnew]
    exact Or.inr h

theorem tracked_cancel (sequence : UInt32) :
    Tracked inner outer (cancel sequence : Run Bool) :=
  bind_client_tame fun _ _ => .bind (tracked_take sequence) fun _ =>
    .bind (tracked_record _) fun _ => tracked_pure _

theorem tracked_materialize (ids : List Id) :
    Tracked inner outer (materialize ids : Run Unit) := closed_tracked.materialize ids

section

variable {completion : Completion} (h : completion.Tame inner)

include h

theorem tracked_subscribe (ids : List Id) :
    Tracked inner outer (subscribe ids completion : Run UInt32) :=
  .bind (tracked_materialize ids) fun _ => .bind (tracked_registerCompletion h) fun _ =>
    .bind (tracked_send _) fun _ => tracked_pure _

theorem tracked_subscribeAll : Tracked inner outer (subscribeAll completion : Run UInt32) :=
  bind_client_tame fun _ _ => .bind (tracked_aside fun _ => ⟨rfl, rfl, rfl⟩) fun _ =>
    tracked_subscribe h _

theorem tracked_multiGet (ids : List Id) :
    Tracked inner outer (multiGet ids completion : Run UInt32) :=
  .bind (tracked_materialize ids) fun _ => .bind (tracked_registerCompletion h) fun _ =>
    .bind (tracked_send _) fun _ => tracked_pure _

theorem tracked_multiSet (values : List Value) :
    Tracked inner outer (multiSet values completion : Run UInt32) :=
  .bind (tracked_registerCompletion h) fun _ => .bind (tracked_send _) fun _ => tracked_pure _

end

theorem tracked_unsubscribeAll : Tracked inner outer (unsubscribeAll : Run UInt32) :=
  .bind tracked_allocateSequence fun _ => .bind (tracked_send _) fun _ => tracked_pure _

theorem tracked_client : Tracked inner outer (Completes.client : Run (Client Completion)) := by
  refine .bind tracked_get fun s => ?_
  split <;> exact tracked_pure _

theorem tracked_enter (root : Id) : Tracked inner outer (Completes.adjustClient
    (fun c : Client Completion =>
      if root ∈ c.entries then c else { c with entries := c.entries ++ [root] }) : Run Unit) := by
  refine tracked_adjust (fun c w => ?_) fun c entry hmem => Or.inl ?_
  · split <;> rfl
  · split at hmem <;> exact hmem

theorem tracked_registerEntry (root : Id) :
    Tracked inner outer (registerEntry root : ExceptT StoreError Run Unit).run := by
  have hclosed : Closed fun {_} x => Tracked inner outer x := closed_tracked
  unfold registerEntry
  refine hclosed.bind_except (hclosed.lift tracked_client) fun c => ?_
  refine hclosed.bind_except (hclosed.lift hclosed.store) fun store => ?_
  have hadded : Tracked inner outer
      (Host.addKey root c.config.app .local : Run (Except StoreError Bool)) :=
    hclosed.addKey _ _ _
  split
  · have hdeclared : Tracked inner outer
        (Host.declareContainer { id := root, order := .ordered } : Run (Except StoreError Unit)) :=
      hclosed.declareContainer _
    exact hclosed.bind_except hdeclared fun _ => hclosed.bind_except hadded fun _ =>
      hclosed.lift (tracked_enter root)
  · exact hclosed.bind_except hadded fun _ => hclosed.lift (tracked_enter root)

theorem tracked_onReceived (bytes : List UInt8) :
    Tracked inner outer (onReceived bytes : Run Unit) :=
  bind_client_tame fun _ _ => .bind (tracked_adjust (fun _ _ => rfl) fun _ _ => Or.inl) fun _ =>
    .bind (tracked_record _) fun _ => tracked_forM fun message _ => tracked_carryOut message

end Client

/-! ## Jobs -/

namespace Run

/-- Letting go of a client that was taken hold of before is no move. -/
theorem along_holdingClient {x : Run α}
    (h : Along inner outer s (x carryOut (t.tendClient Tenure.hold)).2) :
    Along inner outer s (holdingClient x carryOut t).2 := h.trans (.tend _)

theorem work_of_none (h : s.client = none) (job : Job LinkEvent) : (work job carryOut s).2 = s := by
  cases s
  cases h
  rfl

theorem work_own (h : s.client.isSome = true) (event : LinkEvent) :
    (work (.own event) carryOut s).2 =
      (holdingClient (Client.onLink event) carryOut s).2 := by
  change ((if s.client.isSome then holdingClient (Client.onLink event) else pure () :
    Run Unit) carryOut s).2 = _
  rw [if_pos h]

/-- The job at the front is taken off the agenda and done. -/
theorem along_next
    (hcalls : ∀ callback s, callback.Tame inner → Along inner outer s (carryOut callback s))
    {job : Job LinkEvent} {rest : List (Job LinkEvent)}
    (htasks : s.wire.agenda.tasks = job :: rest) :
    Along inner outer s (work job carryOut { s with wire := s.wire.withTasks rest }).2 := by
  refine .given fun hs => ?_
  rcases Option.eq_none_or_eq_some s.client with hnone | ⟨seat, hseat⟩
  · have htaken : { s with wire := s.wire.withTasks rest }.client = none := hnone
    rw [work_of_none htaken]
    exact .unseated htaken rfl fun h => h.withTasks htasks
  · have htaken (hjob : job.news? = none) :
        Along inner outer s { s with wire := s.wire.withTasks rest } :=
      .unseen (fun h => h.withTasks htasks) fun c => c.line_withTasks s.wire htasks hjob
    have hsome : { s with wire := s.wire.withTasks rest }.client.isSome = true := by
      rw [hseat]
      rfl
    cases job with
    | drain =>
      rw [drain_apply, if_pos hsome]
      exact (htaken rfl).trans .drain
    | retry => exact absurd (htasks ▸ List.mem_cons_self) hs.wire.calm
    | own event =>
      rw [work_own hsome]
      apply along_holdingClient
      cases event with
      | connected => exact .connected hseat htasks
      | disconnected => exact .disconnected hseat htasks
      | received bytes =>
        have hreceived : Tracked inner outer (Client.onReceived bytes : Run Unit) :=
          Client.tracked_onReceived bytes
        exact ((htaken rfl).trans (.tend _)).trans (hreceived carryOut hcalls _)

theorem tracked_idle (fuel : Nat) : Tracked inner outer (Station.runUntilIdle work fuel) := by
  induction fuel with
  | zero => exact tracked_pure _
  | succ fuel ih =>
    intro carryOut hcalls s
    cases htasks : s.wire.agenda.tasks with
    | nil =>
      rw [runUntilIdle_nil htasks]
      exact .refl s
    | cons job rest =>
      rw [runUntilIdle_cons htasks]
      exact (along_next hcalls htasks).trans (ih carryOut hcalls _)

/-- The first timer is taken, and the attempt that it waited for is made. -/
theorem along_timer {timer : Timer (Job LinkEvent)} {rest : List (Timer (Job LinkEvent))}
    (htimers : s.wire.agenda.timers = timer :: rest) :
    Along inner outer s (work timer.task carryOut { s with wire := s.wire.withTimers rest }).2 := by
  refine .given fun hs => ?_
  rw [hs.wire.timers timer (htimers ▸ List.mem_cons_self)]
  rcases Option.eq_none_or_eq_some s.client with hnone | ⟨seat, hseat⟩
  · have htaken : { s with wire := s.wire.withTimers rest }.client = none := hnone
    have hfewer : s.wire.Apart (s.wire.withTimers rest) :=
      .fewer fun later hlater => htimers ▸ List.mem_cons_of_mem _ hlater
    rw [work_of_none htaken]
    exact .unseated htaken rfl fun h => h.apart hfewer
  · change Along inner outer s ((if s.client.isSome then Station.work (fun _ => pure ()) .retry
      else pure () : Run Unit) carryOut { s with wire := s.wire.withTimers rest }).2
    rw [if_pos (by rw [hseat]; rfl)]
    exact .retry hseat htimers

theorem tracked_fire (fuel : Nat) : Tracked inner outer (Station.fire work fuel) := by
  intro carryOut hcalls s
  cases htimers : s.wire.agenda.timers with
  | nil =>
    rw [fire_nil htimers]
    exact .refl s
  | cons timer rest =>
    rw [fire_cons htimers]
    exact (along_timer htimers).trans (tracked_idle fuel carryOut hcalls _)

/-! ## Commands -/

theorem entries_detachAll {seats : List LoaderSeat} {r : Registry Listener}
    {entry : Nat × Listener}
    (h : entry ∈ (seats.foldl (fun r seat => r.detach seat.listener) r).entries) :
    entry ∈ r.entries := by
  induction seats generalizing r with
  | nil => exact h
  | cons seat rest ih => exact (List.mem_filter.mp (ih h)).1

theorem along_tendLoader (serial : Nat) (f : Tenure → Tenure) :
    Along inner outer s (s.tendLoader serial f) :=
  .aside rfl rfl fun _ hmem => Or.inl (entries_detachAll hmem)

theorem tracked_holdingLoader {x : Run α} (hx : Tracked inner outer x) (serial : Nat) :
    Tracked inner outer (holdingLoader serial x) :=
  .bind (tracked_modify fun _ => along_tendLoader _ _) fun _ => .bind hx fun _ =>
    .bind (tracked_modify fun _ => along_tendLoader _ _) fun _ => tracked_pure _

theorem along_unobserve (name : String) : Along inner outer s (s.unobserve name) := by
  unfold Session.unobserve
  split
  · exact .refl s
  · exact .aside rfl rfl fun entry hmem => Or.inl (List.mem_filter.mp hmem).1

theorem along_subscribe {listener : Listener} (h : listener.Tame inner) :
    Along inner outer s { s with listeners := (s.listeners.subscribe listener).2 } := by
  refine .aside rfl rfl fun entry hmem => ?_
  rcases List.mem_append.mp hmem with hold | hnew
  · exact Or.inl hold
  · rw [List.mem_singleton.mp hnew]
    exact Or.inr h

theorem along_observe {observer : Observer}
    (h : ∀ command ∈ observer.reaction, command.Tame inner inner) :
    Along inner outer s (s.observe observer) := by
  have hlistening : Along inner outer s
      { s with listeners := (s.listeners.subscribe (.observer observer)).2 } := along_subscribe h
  exact (hlistening.trans (along_unobserve _)).trans (.aside rfl rfl fun _ => Or.inl)

theorem along_seatLoader (loader : Loader) : Along inner outer s (s.seatLoader loader) := by
  let seated : Session := { s with
    listeners := (s.listeners.subscribe (.loader s.nextLoader)).2
    loaders := s.loaders ++
      [{ serial := s.nextLoader, loader, listener := (s.listeners.subscribe (.loader 0)).1 }]
    nextLoader := s.nextLoader + 1 }
  have hlistening : Along inner outer s
      { s with listeners := (s.listeners.subscribe (.loader s.nextLoader)).2 } :=
    along_subscribe trivial
  have hseated : Along inner outer s seated :=
    hlistening.trans (.aside rfl rfl fun _ => Or.inl)
  unfold Session.seatLoader
  dsimp only
  split
  · rename_i before _
    have hended : Along inner outer seated (seated.tendLoader before.serial Tenure.release) :=
      along_tendLoader _ _
    exact hseated.trans hended
  · exact hseated

theorem tracked_withLoader {act : Loader → Run Reply} (hact : ∀ l, Tracked inner outer (act l)) :
    Tracked inner outer (withLoader act) := by
  refine .bind tracked_get fun s => ?_
  split
  · exact tracked_holdingLoader (hact _) _
  · exact tracked_pure _

theorem tracked_files (files : Session → FileTree) :
    Tracked inner outer (modify fun s => { s with files := files s } : Run Unit) :=
  tracked_aside fun _ => ⟨rfl, rfl, rfl⟩

theorem tracked_loader (command : LoaderCommand) : Tracked inner outer (loader command) := by
  unfold loader
  cases command with
  | attach loader =>
    refine .bind (closed_tracked.attach loader) fun result => ?_
    split
    · exact tracked_pure _
    · exact .bind (tracked_modify fun _ => along_seatLoader loader) fun _ => tracked_pure _
  | detach =>
    refine .bind tracked_get fun s => ?_
    split
    · exact .bind (tracked_modify fun _ => along_tendLoader _ _) fun _ => tracked_pure _
    · exact tracked_pure _
  | trigger =>
    exact tracked_withLoader fun l => .bind tracked_get fun s =>
      .bind (closed_tracked.trigger l s.files) fun _ => tracked_pure _
  | status => exact tracked_withLoader fun l => .bind tracked_get fun s => tracked_pure _
  | run action path =>
    exact tracked_withLoader fun l => .bind tracked_get fun s =>
      .bind (closed_tracked.run l s.files action path) fun _ => tracked_pure _
  | writeFile path bytes =>
    exact .bind (tracked_files fun s => s.files.write path bytes) fun _ => tracked_pure _
  | makeDirectory path =>
    exact .bind (tracked_files fun s => s.files.makeDirectory path) fun _ => tracked_pure _
  | deleteFile path =>
    exact .bind tracked_get fun s =>
      .bind (tracked_files fun _ => (s.files.delete path).2) fun _ => tracked_pure _

theorem tracked_receiver (command : ReceiverCommand) :
    Tracked inner outer (receiver command) := by
  cases command with
  | insertFilter _ | eraseFilter _ =>
    exact .bind (tracked_aside fun _ => ⟨rfl, rfl, rfl⟩) fun _ => tracked_pure _
  | update update =>
    exact .bind (closed_tracked.applyUpdate tracked_filter update) fun _ => tracked_pure _
  | handle message => exact .bind (tracked_carryOut message) fun _ => tracked_pure _
  | outbound _ => exact tracked_pure _
  | _ => exact .bind tracked_get fun s => tracked_pure _

/-- What is done with a client is done while it is there. -/
theorem along_withClient {act : Client Completion → Run Reply}
    (hact : ∀ c (t : Session) (seat : ClientSeat), t.client = some seat →
      Along inner outer t (act c carryOut t).2) :
    Along inner outer s (withClient act carryOut s).2 := by
  rw [withClient, get_bind]
  cases howned : s.owned? with
  | none => exact .refl s
  | some c =>
    obtain ⟨seat, hseat, -⟩ := held_hold (isSome_of_owned? howned)
    exact along_holdingClient ((Along.tend _).trans (hact c _ seat hseat))

theorem tracked_withClient {act : Client Completion → Run Reply}
    (hact : ∀ c, Tracked inner outer (act c)) : Tracked inner outer (withClient act) :=
  fun carryOut hcalls _ => along_withClient fun c t _ _ => hact c carryOut hcalls t

theorem tracked_request (r : Request) {completion : Completion} (h : completion.Tame inner) :
    Tracked inner outer (request r completion) := by
  refine tracked_withClient fun _ => ?_
  cases r with
  | subscribe ids => exact .bind (Client.tracked_subscribe h ids) fun _ => tracked_pure _
  | subscribeAll => exact .bind (Client.tracked_subscribeAll h) fun _ => tracked_pure _
  | multiGet ids => exact .bind (Client.tracked_multiGet h ids) fun _ => tracked_pure _
  | multiSet values => exact .bind (Client.tracked_multiSet h values) fun _ => tracked_pure _

theorem tracked_dropClient : Tracked inner outer dropClient := by
  have hcount : Tracked inner outer timerCount := .bind tracked_get fun s => tracked_pure _
  refine .bind hcount fun before => .bind (tracked_modify fun _ => .tend _) fun _ => ?_
  exact .bind hcount fun after => .bind (tracked_idle _) fun count =>
    .bind (tracked_received _) fun _ => tracked_pure _

theorem tracked_clientCommand {command : ClientCommand} (hallowed : outer command) :
    Tracked inner outer (client command) := by
  unfold client
  cases command with
  | start => exact fun carryOut _ s => along_withClient fun _ t _ ht => .start ht hallowed
  | shutdown => exact fun carryOut _ s => along_withClient fun _ t _ ht => .shutdown ht hallowed
  | unsubscribeAll =>
    exact tracked_withClient fun _ => .bind Client.tracked_unsubscribeAll fun _ => tracked_pure _
  | cancel sequence =>
    exact tracked_withClient fun _ => .bind (Client.tracked_cancel sequence) fun _ => tracked_pure _
  | register root =>
    exact tracked_withClient fun _ =>
      .bind (Client.tracked_registerEntry root) fun _ => tracked_pure _
  | owner id => exact tracked_withClient fun _ => .bind tracked_get fun s => tracked_pure _
  | drop =>
    refine .bind tracked_get fun s => ?_
    split
    · exact tracked_dropClient
    · exact tracked_pure _

/-- Nothing becomes of the link that the client could see. -/
theorem along_relink {link : Link} (hconnected : link.connected = s.wire.link.connected)
    (hattempts : link.attempts = s.wire.link.attempts) :
    Along inner outer s { s with wire := { s.wire with link } } :=
  .unseen (fun h => h.agenda rfl) fun c => by
    simp [Client.line, hconnected, hattempts, Wire.retries]

theorem tracked_wireCommand {command : WireCommand} (hconnect : command ≠ .connect)
    (hclose : command ≠ .close) : Tracked inner outer (wire command) := by
  cases command with
  | run => exact .bind (tracked_idle _) fun _ => tracked_pure _
  | fire => exact .bind (tracked_fire patience) fun _ => tracked_pure _
  | armed | attempts | frames => exact .bind tracked_get fun s => tracked_pure _
  | reachable reachable =>
    exact .bind (tracked_modify fun _ => along_relink rfl rfl) fun _ => tracked_pure _
  | close => exact absurd rfl hclose
  | lose => exact .bind tracked_lose fun _ => tracked_pure _
  | connect => exact absurd rfl hconnect
  | sent => exact fun _ _ s => along_relink rfl rfl
  | inject bytes chunk run =>
    refine .bind (tracked_forM fun piece _ => tracked_received piece) fun _ => ?_
    split
    · exact .bind (tracked_idle _) fun _ => tracked_pure _
    · exact tracked_pure _

theorem tracked_act {command : Command} (h : command.Tame inner outer) :
    Tracked inner outer (act command) := by
  cases h with
  | invalid _ => exact tracked_pure _
  | query _ => exact .bind tracked_get fun s => tracked_pure _
  | change c => exact .bind (closed_tracked.perform c) fun _ => tracked_pure _
  | observe hreaction =>
    exact .bind (tracked_modify fun _ => along_observe hreaction) fun _ => tracked_pure _
  | unobserve name =>
    exact .bind tracked_get fun s => .bind (tracked_modify fun _ => along_unobserve name) fun _ =>
      tracked_pure _
  | fragment command text => exact closed_tracked.fragment command text
  | loader command => exact tracked_loader command
  | receiver command => exact tracked_receiver command
  | request hreaction => exact tracked_request _ hreaction
  | client hallowed => exact tracked_clientCommand hallowed
  | wire hconnect hclose => exact tracked_wireCommand hconnect hclose

/-! ## Callbacks -/

theorem tracked_perform {callback : Callback} (h : callback.Tame inner) :
    Tracked inner inner (perform callback) := by
  cases callback with
  | react name reaction limit =>
    refine .bind tracked_get fun s => ?_
    split
    · refine .bind (tracked_aside fun _ => ⟨rfl, rfl, rfl⟩) fun _ =>
        tracked_forM fun command hmem => ?_
      exact .bind (tracked_act (h command hmem)) fun _ => tracked_log _
    · exact tracked_pure _
  | trigger serial =>
    refine .bind tracked_get fun s => ?_
    split
    · rename_i loader _
      refine tracked_holdingLoader (.bind tracked_get fun s => ?_) serial
      exact .bind (closed_tracked.trigger loader s.files) fun _ => tracked_pure _
    · exact tracked_pure _

/-- Tame callbacks move the line, however deep they nest. -/
theorem along_carryOut (fuel : Nat) (callback : Callback) (s : Session)
    (h : callback.Tame inner) : Along inner inner s (Run.carryOut fuel callback s) := by
  induction fuel generalizing callback s with
  | zero => exact .aside rfl rfl fun _ => Or.inl
  | succ fuel ih => exact tracked_perform h (Run.carryOut fuel) (fun callback s => ih callback s) s

end Run

/-! ## Sessions -/

namespace Session

theorem along_step (hallowed : ∀ command, inner command → outer command) {command : Command}
    (h : command.Tame inner outer) (s : Session) : Along inner outer s (s.step command).2 :=
  Run.tracked_act h _ (fun callback s hcallback =>
    (Run.along_carryOut Run.depthLimit callback s hcallback).mono hallowed) s

/-- Whatever tame commands are asked of a session, they move the line. -/
theorem along_steps (hallowed : ∀ command, inner command → outer command) {commands : List Command}
    (h : ∀ command ∈ commands, command.Tame inner outer) (s : Session) :
    Along inner outer s (s.steps commands).2 := by
  induction commands generalizing s with
  | nil => exact .refl s
  | cons command rest ih =>
    have hfirst := along_step hallowed (h command List.mem_cons_self) s
    have hcleared : Along inner outer (s.step command).2 { (s.step command).2 with log := [] } :=
      .aside rfl rfl fun _ => Or.inl
    exact (hfirst.trans hcleared).trans
      (ih (fun later hmem => h later (List.mem_cons_of_mem _ hmem)) _)

/-! ## Where a session with a client starts -/

theorem tidy_start (files : FileTree) (config : ClientConfig) :
    ((fresh files).seatClient config).Tidy inner where
  listeners := by
    refine List.forall_mem_cons.mpr ⟨?_, List.forall_mem_singleton.mpr trivial⟩
    exact fun _ hmem => absurd hmem List.not_mem_nil
  pending {seat} hseat entry hmem := by
    rw [client_seatClient] at hseat
    cases hseat
    cases hmem
  wire := ⟨List.not_mem_nil, nofun⟩

end Session

end ValueTree
