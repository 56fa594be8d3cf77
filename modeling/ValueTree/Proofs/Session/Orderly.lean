import ValueTree.Proofs.Session.Closed
import ValueTree.Proofs.Session.Passage

/-!
# Every run is a passage

A computation is orderly if it makes a passage, given that callbacks do. Some computations are so
only while somebody holds the client.
-/

namespace ValueTree

/-- Makes a passage, given that callbacks do and, if need be, that the client is held. -/
def Orderly (held : Bool) {α : Type} (x : Run α) : Prop :=
  ∀ carryOut : Callback → Session → Session, (∀ callback s, Passage [] s (carryOut callback s)) →
    ∀ s : Session, (held = true → s.Held) → Passage [] s (x carryOut s).2

variable {held : Bool} {α β ε : Type}

/-! ## Putting computations together -/

theorem Orderly.bind {x : Run α} {f : α → Run β} (hx : Orderly held x)
    (hf : ∀ a, Orderly held (f a)) : Orderly held (x >>= f) := by
  intro carryOut hcalls s hs
  have h := hx carryOut hcalls s hs
  exact h.trans (hf _ carryOut hcalls _ fun hheld => h.course.keeps_held (hs hheld))

theorem orderly_pure (a : α) : Orderly held (pure a : Run α) := by
  intro carryOut _ s _
  exact .refl s

theorem bind_apply (x : Run α) (f : α → Run β) (carryOut : Callback → Session → Session)
    (s : Session) : (x >>= f) carryOut s = f (x carryOut s).1 carryOut (x carryOut s).2 := rfl

theorem get_bind (f : Session → Run α) (carryOut : Callback → Session → Session) (s : Session) :
    (get >>= f : Run α) carryOut s = f s carryOut s := rfl

theorem orderly_get : Orderly held (get : Run Session) := by
  intro carryOut _ s _
  exact .refl s

theorem orderly_modify {f : Session → Session} (hf : ∀ s, Passage [] s (f s)) :
    Orderly held (modify f : Run Unit) := by
  intro carryOut _ s _
  exact hf s

theorem orderly_aside {f : Session → Session}
    (hf : ∀ s, (f s).store = s.store ∧ (f s).client = s.client ∧ (f s).journal = s.journal ∧
      (f s).wire = s.wire) : Orderly held (modify f : Run Unit) := by
  refine orderly_modify fun s => ?_
  obtain ⟨hstore, hclient, hjournal, hwire⟩ := hf s
  exact .act (.aside hstore hclient hjournal hwire)

theorem orderly_forM {xs : List α} {f : α → Run PUnit} (hf : ∀ a, Orderly held (f a)) :
    Orderly held (xs.forM f) := by
  induction xs with
  | nil => exact orderly_pure _
  | cons x xs ih => exact .bind (hf x) fun _ => ih

/-! ## With errors -/

/-- What comes after a computation that may fail starts from what it leaves. -/
theorem passage_bind_except {x : ExceptT ε Run α} {f : α → ExceptT ε Run β}
    {carryOut : Callback → Session → Session} {s : Session}
    (hx : Passage [] s (x.run carryOut s).2)
    (hf : ∀ a, (x.run carryOut s).1 = .ok a →
      Passage [] (x.run carryOut s).2 ((f a).run carryOut (x.run carryOut s).2).2) :
    Passage [] s ((x >>= f).run carryOut s).2 := by
  rw [ExceptT.run_bind, bind_apply]
  cases hresult : (x.run carryOut s).1 with
  | ok a => exact hx.trans (hf a hresult)
  | error e => exact hx

theorem lift_bind_apply (x : Run α) (f : α → ExceptT ε Run β)
    (carryOut : Callback → Session → Session) (s : Session) :
    ((liftM x : ExceptT ε Run α) >>= f).run carryOut s =
      (f (x carryOut s).1).run carryOut (x carryOut s).2 := rfl

/-! ## Events and changes -/

namespace Run

theorem orderly_call (callback : Callback) : Orderly held (call callback) := by
  intro carryOut hcalls s _
  exact hcalls callback s

theorem orderly_log (entry : LogEntry) : Orderly held (log entry) :=
  orderly_aside fun _ => ⟨rfl, rfl, rfl, rfl⟩

theorem orderly_observed (observer : Observer) (event : Event) :
    Orderly held (observed observer event) := by
  unfold observed
  split
  · exact .bind (orderly_log _) fun _ => orderly_call _
  · exact orderly_pure _

theorem orderly_relayed (event : Event) : Orderly held (relayed event) := by
  unfold relayed
  refine .bind orderly_get fun s => ?_
  split
  · split
    · exact orderly_modify fun _ => .act (.queue _)
    · exact orderly_pure _
  · exact orderly_pure _

theorem orderly_ordered (serial : Nat) (event : Event) : Orderly held (ordered serial event) := by
  unfold ordered
  refine .bind orderly_get fun s => ?_
  split
  · split
    · exact orderly_call _
    · exact orderly_pure _
  · exact orderly_pure _

theorem orderly_mark (mark : Mark) : Orderly held (modify (·.mark mark) : Run Unit) :=
  orderly_aside fun _ => ⟨rfl, rfl, rfl, rfl⟩

theorem orderly_deliver (event : Event) : Orderly held (deliver event) := by
  unfold deliver
  refine .bind orderly_get fun s => orderly_forM fun listener => ?_
  refine .bind (orderly_mark _) fun _ => ?_
  cases listener with
  | observer observer => exact orderly_observed observer event
  | client => exact orderly_relayed event
  | loader serial => exact orderly_ordered serial event

theorem orderly_change {step : Store → Outcome α}
    (hstep : ∀ s : Store, s.Turn (step s).store (step s).events) :
    Orderly held (Host.change step : Run (Except StoreError α)) := by
  intro carryOut hcalls s hs
  have hrest : Orderly held (do
      ((step s.store).events.forM deliver : Run Unit)
      pure (step s.store).result) :=
    .bind (orderly_forM orderly_deliver) fun _ => orderly_pure _
  obtain ⟨declared, hstore⟩ := (hstep s.store).step
  have hmarked : Passage [] s (s.mark (.made (step s.store).events)) :=
    .act (.aside rfl rfl rfl rfl)
  have hchanged := hmarked.trans (.act (.store hstore))
  exact hchanged.trans
    (hrest carryOut hcalls _ fun hheld => hchanged.course.keeps_held (hs hheld))

theorem closed_orderly : Closed fun {_} x => Orderly held x where
  pure := orderly_pure
  bind := .bind
  store := .bind orderly_get fun _ => orderly_pure _
  change := orderly_change

end Run

/-! ## Messages -/

namespace Run

theorem orderly_filter : Orderly held (Receiver.filter : Run Filter) :=
  .bind orderly_get fun _ => orderly_pure _

variable {carryOut : Callback → Session → Session} {s : Session}

theorem passage_holdingClient {act : Run α} (hs : s.client.isSome = true)
    (hact : Passage [] (s.tendClient Tenure.hold) (act carryOut (s.tendClient Tenure.hold)).2) :
    Passage [] s (holdingClient act carryOut s).2 :=
  .held hs hact

theorem held_hold (hs : s.client.isSome = true) : (s.tendClient Tenure.hold).Held := by
  obtain ⟨seat, hseat⟩ := Option.isSome_iff_exists.mp hs
  exact ⟨_, Course.client_hold hseat, Nat.succ_pos _⟩

theorem client_apply {seat : ClientSeat} (hs : s.client = some seat) :
    (Completes.client : Run (Client Completion)) carryOut s = (seat.client, s) := by
  cases s
  cases hs
  rfl

/-- A computation that asks for the client goes on with the one that is seated. -/
theorem bind_client {seat : ClientSeat} (hs : s.client = some seat)
    (f : Client Completion → Run α) :
    ((Completes.client : Run (Client Completion)) >>= f) carryOut s = f seat.client carryOut s := by
  rw [bind_apply, client_apply hs]

/-- A result runs its completion while it is handled. -/
theorem passage_onResult (hcalls : ∀ callback s, Passage [] s (carryOut callback s))
    {seat : ClientSeat} {n : UInt32} {ok : Bool} (hs : s.client = some seat)
    (hat : AtResult s.journal n ok) :
    Passage [] s ((Client.onResult n ok : Run Unit) carryOut s).2 := by
  unfold Client.onResult
  rw [bind_client hs]
  cases htaken : (seat.client.take n).1 with
  | none =>
    simp only [htaken]
    exact .act (.miss hs htaken)
  | some completion =>
    simp only [htaken]
    refine .trans (.act (.run hs htaken hat)) ?_
    have hcomplete : Orderly false (Completes.complete completion ok : Run Unit) :=
      .bind (orderly_log _) fun _ => orderly_call _
    exact hcomplete carryOut hcalls _ nofun

theorem answered_none (hs : s.client = none) (n : UInt32) (ok : Bool) :
    ((Receiver.answered n ok : Run Unit) carryOut s).2 =
      (s.write (.result n ok)).record (.answered n ok) := by
  cases s
  cases hs
  rfl

theorem answered_some {seat : ClientSeat} (hs : s.client = some seat) (n : UInt32) (ok : Bool) :
    ((Receiver.answered n ok : Run Unit) carryOut s).2 =
      ((if seat.client.listening then holdingClient (Client.onResult n ok) else pure () : Run Unit)
        carryOut ((s.write (.result n ok)).record (.answered n ok))).2 := by
  cases s
  cases hs
  rfl

theorem passage_answered (hcalls : ∀ callback s, Passage [] s (carryOut callback s)) {n : UInt32}
    {ok : Bool} (hat : AtResult (s.record (.answered n ok)).journal n ok) :
    Passage [] s ((Receiver.answered n ok : Run Unit) carryOut s).2 := by
  have hlogged : Passage [] s (s.write (.result n ok)) :=
    .act (.aside rfl rfl rfl rfl)
  have hanswered := hlogged.trans (.act (.answer n ok))
  cases hs : s.client with
  | none =>
    rw [answered_none hs]
    exact hanswered
  | some seat =>
    rw [answered_some hs]
    refine hanswered.trans ?_
    have hseat : ((s.write (.result n ok)).record (.answered n ok)).client = some seat := hs
    split
    · apply passage_holdingClient (by rw [hseat]; rfl)
      apply passage_onResult hcalls (Course.client_hold hseat)
      rw [Course.journal_tendClient]
      exact hat
    · exact .refl _

/-- Once the values of a result are in place its completion has its turn. -/
theorem passage_applied (hcalls : ∀ callback s, Passage [] s (carryOut callback s)) (n : UInt32)
    (status : Status) (values : List Value) {t : Session}
    (ht : ((Receiver.applyResult status values : Run Unit) carryOut
      (s.record (.began (.result n status values)))).2 = t) :
    Passage [] (s.record (.began (.result n status values))) t ∧
      Passage [] t ((Receiver.answered n status.isSuccess : Run Unit) carryOut t).2 := by
  have h : Orderly false (Receiver.applyResult status values : Run Unit) :=
    closed_orderly.applyResult orderly_filter status values
  have happlied := h carryOut hcalls (s.record (.began (.result n status values))) nofun
  rw [ht] at happlied
  refine ⟨happlied, passage_answered hcalls ?_⟩
  obtain ⟨during, hjournal, hword⟩ := happlied.course.word
  refine ⟨s.journal, status, values, during, ?_, hword, rfl⟩
  rw [Course.journal_record, hjournal, Course.journal_record]
  simp

/-- Handling a message makes a passage. -/
theorem passage_handle (hcalls : ∀ callback s, Passage [] s (carryOut callback s))
    (message : Message) :
    Passage [] (s.record (.began message))
      ((Receiver.handle message : Run Unit) carryOut (s.record (.began message))).2 := by
  cases message with
  | valueChanged updates =>
    have h : Orderly false (Receiver.handle (.valueChanged updates) : Run Unit) :=
      orderly_forM fun update =>
        .bind (closed_orderly.applyUpdate orderly_filter update) fun _ => orderly_pure _
    exact h carryOut hcalls _ nofun
  | valueRemoved ids tokens =>
    have h : Orderly false (Receiver.handle (.valueRemoved ids tokens) : Run Unit) :=
      orderly_forM fun (id, token?) => closed_orderly.applyRemoval id token?
    exact h carryOut hcalls _ nofun
  | result n status values =>
    obtain ⟨happlied, hanswered⟩ := passage_applied hcalls n status values rfl
    exact happlied.trans hanswered
  | _ => exact .refl _

theorem passage_messages (hcalls : ∀ callback s, Passage [] s (carryOut callback s))
    (messages : List Message) :
    Passage messages s ((messages.forM Client.carryOut : Run Unit) carryOut s).2 := by
  induction messages generalizing s with
  | nil => exact .refl s
  | cons message rest ih => exact .handle (passage_handle hcalls message) ih

theorem orderly_carryOut (message : Message) :
    Orderly held (Client.carryOut message : Run Unit) := by
  intro carryOut hcalls s _
  exact .within (.handle (passage_handle hcalls message) (.refl _))

end Run

/-! ## The wire -/

namespace Run

theorem orderly_wire : Orderly held (Station.wire : Run (Wire LinkEvent)) :=
  .bind orderly_get fun _ => orderly_pure _

theorem orderly_adjustWire {f : Wire LinkEvent → Wire LinkEvent}
    (hf : ∀ w : Wire LinkEvent, w.Apart (f w)) :
    Orderly held (Station.adjust f : Run Unit) :=
  orderly_modify fun s => .act (.wire (hf s.wire))

theorem orderly_relink (link : Wire LinkEvent → Link) :
    Orderly held (Station.adjust fun w => { w with link := link w } : Run Unit) :=
  orderly_modify fun s => .act (.link (link s.wire))

theorem orderly_adjustClient {f : Client Completion → Client Completion}
    (hbooks : ∀ c, (f c).SameBooks c) (hduties : ∀ c, (f c).SameDuties c) :
    Orderly held (Completes.adjustClient f : Run Unit) :=
  orderly_modify fun _ => .act (.adjust hbooks hduties)

theorem orderly_announce (attempt : Attempt) :
    Orderly held (Station.announce attempt : Run Unit) := by
  apply orderly_adjustClient
  · intro c
    cases attempt <;> unfold Client.attempted <;> dsimp only
    all_goals split <;> exact ⟨rfl, rfl, rfl, rfl⟩
  · intro c
    cases attempt <;> unfold Client.attempted <;> dsimp only
    all_goals
      split
      · exact ⟨rfl, rfl, by simp [*]⟩
      · exact ⟨rfl, rfl, Iff.rfl⟩

theorem orderly_notify (event : LinkEvent) : Orderly held (Station.notify event : Run Unit) := by
  refine .bind orderly_get fun s => ?_
  split
  · exact orderly_adjustWire fun w => .post w event
  · exact orderly_pure _

theorem orderly_connect : Orderly held (Station.connect : Run (Except SyncError Unit)) := by
  refine .bind orderly_wire fun wire => .bind (orderly_relink fun _ => wire.link.connect.2) ?_
  intro _
  split
  · exact .bind (orderly_notify _) fun _ => orderly_pure _
  · exact orderly_pure _

theorem orderly_lose : Orderly held (Station.lose : Run Unit) := by
  refine .bind orderly_wire fun wire => .bind (orderly_relink fun w => w.link.close) fun _ => ?_
  split
  · exact orderly_notify _
  · exact orderly_pure _

theorem orderly_retry : Orderly held (Station.retry : Run Unit) := by
  refine .bind (orderly_adjustWire fun w => .reconnect w _) fun _ => ?_
  refine .bind (orderly_announce _) fun _ => .bind orderly_connect fun result => ?_
  split
  · exact .bind (orderly_announce _) fun _ => orderly_adjustWire .arm
  · exact orderly_adjustWire .arm

end Run

/-! ## The client -/

namespace Client

open Run

theorem orderly_allocateSequence : Orderly true (allocateSequence : Run UInt32) := by
  intro carryOut hcalls s hheld
  obtain ⟨seat, hseat, _⟩ := hheld rfl
  unfold allocateSequence
  rw [bind_client hseat]
  exact .act (.allocate hseat)

theorem orderly_registerCompletion (completion : Completion) :
    Orderly true (registerCompletion completion : Run UInt32) := by
  intro carryOut hcalls s hheld
  obtain ⟨seat, hseat, _⟩ := hheld rfl
  unfold registerCompletion
  rw [bind_client hseat]
  exact .act (.register completion hseat)

theorem orderly_cancel (sequence : UInt32) : Orderly true (cancel sequence : Run Bool) := by
  intro carryOut hcalls s hheld
  obtain ⟨seat, hseat, _⟩ := hheld rfl
  unfold cancel
  rw [bind_client hseat]
  exact .act (.cancel sequence hseat)

theorem orderly_send (message : Message) : Orderly held (send message : Run Unit) :=
  orderly_modify fun _ => .act (.queue message)

theorem orderly_materialize (ids : List Id) : Orderly held (materialize ids : Run Unit) :=
  closed_orderly.materialize ids

theorem orderly_subscribe (ids : List Id) (completion : Completion) :
    Orderly true (subscribe ids completion : Run UInt32) :=
  .bind (orderly_materialize ids) fun _ => .bind (orderly_registerCompletion completion) fun _ =>
    .bind (orderly_send _) fun _ => orderly_pure _

theorem orderly_client : Orderly held (Completes.client : Run (Client Completion)) := by
  refine .bind orderly_get fun s => ?_
  split <;> exact orderly_pure _

theorem orderly_subscribeAll (completion : Completion) :
    Orderly true (subscribeAll completion : Run UInt32) :=
  .bind orderly_client fun _ => .bind (orderly_aside fun _ => ⟨rfl, rfl, rfl, rfl⟩) fun _ =>
    orderly_subscribe _ completion

theorem orderly_unsubscribeAll : Orderly true (unsubscribeAll : Run UInt32) :=
  .bind orderly_allocateSequence fun _ => .bind (orderly_send _) fun _ => orderly_pure _

theorem orderly_multiGet (ids : List Id) (completion : Completion) :
    Orderly true (multiGet ids completion : Run UInt32) :=
  .bind (orderly_materialize ids) fun _ => .bind (orderly_registerCompletion completion) fun _ =>
    .bind (orderly_send _) fun _ => orderly_pure _

theorem orderly_multiSet (values : List Value) (completion : Completion) :
    Orderly true (multiSet values completion : Run UInt32) :=
  .bind (orderly_registerCompletion completion) fun _ =>
    .bind (orderly_send _) fun _ => orderly_pure _

theorem join_of_addKey {s : Store} {root : Id} {app : String} {origin : Origin} {added : Bool}
    (h : (s.addKey root app origin).result = .ok added) : ∃ entry, root.join app = .ok entry := by
  unfold Store.addKey at h
  split at h
  · cases h
  · exact ⟨_, ‹_›⟩

/-- An entry is registered once its key is there. -/
theorem passage_enter {carryOut : Callback → Session → Session}
    (hcalls : ∀ callback s, Passage [] s (carryOut callback s)) {s : Session} (hheld : s.Held)
    {app : String} (happ : ∀ seat, s.client = some seat → seat.client.config.app = app)
    (root : Id) :
    Passage [] s ((do
      let _ ← ExceptT.mk (Host.addKey root app .local : Run _)
      (Completes.adjustClient fun c : Client Completion =>
        if root ∈ c.entries then c else { c with entries := c.entries ++ [root] } : Run Unit) :
          ExceptT StoreError Run Unit).run carryOut s).2 := by
  have hadded : Orderly true (Host.addKey root app .local : Run (Except StoreError Bool)) :=
    closed_orderly.addKey _ _ _
  have hpassage := hadded carryOut hcalls s fun _ => hheld
  refine passage_bind_except hpassage fun added hresult => ?_
  obtain ⟨entry, hjoin⟩ := join_of_addKey hresult
  obtain ⟨after, hafter, -⟩ := hpassage.course.keeps_held hheld
  obtain ⟨before, hbefore, hconfig⟩ := hpassage.config hafter
  rw [← happ before hbefore, ← hconfig] at hjoin
  exact .act (.enter hafter hjoin)

theorem orderly_registerEntry (root : Id) :
    Orderly true (registerEntry root : ExceptT StoreError Run Unit).run := by
  intro carryOut hcalls s hs
  obtain ⟨seat, hseat, hheld⟩ := hs rfl
  unfold registerEntry
  rw [lift_bind_apply, client_apply hseat]
  dsimp only
  rw [lift_bind_apply]
  split
  · have hdeclared : Orderly true
        (Host.declareContainer { id := root, order := .ordered } : Run (Except StoreError Unit)) :=
      closed_orderly.declareContainer _
    have hpassage := hdeclared carryOut hcalls s hs
    refine passage_bind_except hpassage fun _ _ => ?_
    refine passage_enter hcalls (hpassage.course.keeps_held (hs rfl)) ?_ root
    intro after hafter
    obtain ⟨before, hbefore, hconfig⟩ := hpassage.config hafter
    cases hseat.symm.trans hbefore
    rw [hconfig]
  · refine passage_enter hcalls (hs rfl) ?_ root
    intro after hafter
    cases hseat.symm.trans hafter
    rfl

theorem connect_of_reachable {carryOut : Callback → Session → Session} {s : Session}
    (h : s.wire.link.reachable = true) :
    ((Station.connect : Run (Except SyncError Unit)) carryOut s).1 = .ok () := by
  obtain ⟨store, listeners, handles, uses, log, files, loaders, nextLoader, filter, client,
    ⟨agenda, ⟨connected, reachable, attempts, sent⟩, outbox, reconnector, framing⟩, journal⟩ := s
  cases h
  rfl

/-- A first attempt that fails leaves an attempt to come. -/
theorem start_of_unreachable {carryOut : Callback → Session → Session} {s : Session}
    {seat : ClientSeat} (hseat : s.client = some seat) (hstarted : seat.client.started = false)
    (h : s.wire.link.reachable = false) :
    ((start : Run Unit) carryOut s).2 =
      { s.adjustClient fun c => { c with started := true, connection := .disconnected } with
        wire := { s.wire with link := s.wire.link.connect.2 }.arm } := by
  obtain ⟨store, listeners, handles, uses, log, files, loaders, nextLoader, filter, client,
    ⟨agenda, ⟨connected, reachable, attempts, sent⟩, outbox, reconnector, framing⟩, journal⟩ := s
  obtain ⟨⟨_, _, _, _, _, _, started, _⟩, listener, tenure⟩ := seat
  cases h
  cases hseat
  cases hstarted
  rfl

theorem orderly_start : Orderly true (start : Run Unit) := by
  intro carryOut hcalls s hs
  obtain ⟨seat, hseat, -⟩ := hs rfl
  cases hstarted : seat.client.started with
  | true =>
    unfold start
    rw [bind_client hseat, hstarted]
    exact .refl s
  | false =>
    cases hreachable : s.wire.link.reachable with
    | true =>
      have hbegun : Passage [] s (s.adjustClient fun c =>
          { c with started := true, connection := .connecting }) :=
        .act (.start hseat hstarted nofun)
      have hconnect : Orderly true (Station.connect : Run (Except SyncError Unit)) :=
        orderly_connect
      have hconnected := hconnect carryOut hcalls _ fun hheld => hbegun.course.keeps_held (hs hheld)
      unfold start
      rw [bind_client hseat, hstarted, if_pos Bool.not_false, bind_apply, bind_apply,
        connect_of_reachable]
      · exact hbegun.trans hconnected
      · exact hreachable
    | false =>
      rw [start_of_unreachable hseat hstarted hreachable]
      have hfailed : Passage [] s (s.adjustClient fun c =>
          { c with started := true, connection := .disconnected }) :=
        .act (.start hseat hstarted nofun)
      exact hfailed.trans (.trans (.act (.link s.wire.link.connect.2)) (.act (.wire (.arm _))))

theorem orderly_shutdown : Orderly held (shutdown : Run Unit) := by
  intro carryOut _ s _
  exact .act .shutDown

theorem orderly_onConnected : Orderly held (onConnected : Run Unit) := by
  intro carryOut _ s _
  exact .act .up

theorem resync_apply {carryOut : Callback → Session → Session} {s : Session} {seat : ClientSeat}
    (hseat : s.client = some seat) :
    ((resync : Run Unit) carryOut s).2 = s.renew seat.client := by
  have hcleared : { s with wire := s.wire.clear }.client = some seat := hseat
  have hwire : (Station.adjust Wire.clear : Run Unit) carryOut s =
    ((), { s with wire := s.wire.clear }) := rfl
  have hstore : (Host.store : Run Store) carryOut { s with wire := s.wire.clear } =
    (s.store, { s with wire := s.wire.clear }) := rfl
  unfold resync Session.renew Client.renewal
  rw [bind_apply, hwire, bind_client hcleared, bind_apply, hstore]
  dsimp only
  cases hentries : (seat.client.entries.flatMap
      (entryUpdates seat.client.config.app s.store)).isEmpty
  all_goals
    cases hvalues : (currentValues s.store).isEmpty
    all_goals
      cases s
      cases hseat
      rfl

/-- Only the loss of a connection that was up, and that is to come up again, has a renewal. -/
theorem onDisconnected_apply {carryOut : Callback → Session → Session} {s : Session}
    {seat : ClientSeat} (hseat : s.client = some seat) :
    ((onDisconnected : Run Unit) carryOut s).2 =
      if seat.client.config.autoReconnect then
        if seat.client.connection = .connected then (s.goDown.renew seat.client).armRetry
        else s.goDown.armRetry
      else s.goDown := by
  have hdown : (s.record .down).client = some seat := hseat
  have hgone : s.goDown.client =
      some { seat with client := { seat.client with connection := .disconnected } } :=
    Course.client_adjustClient hseat fun c => { c with connection := .disconnected }
  have hrecord : (Completes.record .down : Run Unit) carryOut s = ((), s.record .down) := rfl
  unfold onDisconnected
  rw [bind_apply, hrecord, bind_client hdown]
  change ((if seat.client.config.autoReconnect then _ else pure () : Run Unit) carryOut
    s.goDown).2 = _
  by_cases hauto : seat.client.config.autoReconnect
  · rw [if_pos hauto, if_pos hauto]
    by_cases hconnected : seat.client.connection = .connected
    · rw [if_pos hconnected, if_pos hconnected, bind_apply, resync_apply hgone]
      rfl
    · rw [if_neg hconnected, if_neg hconnected]
      rfl
  · rw [if_neg hauto, if_neg hauto]
    rfl

theorem orderly_onDisconnected : Orderly true (onDisconnected : Run Unit) := by
  intro carryOut hcalls s hs
  obtain ⟨seat, hseat, -⟩ := hs rfl
  rw [onDisconnected_apply hseat]
  split
  · rename_i hauto
    split
    · rename_i hconnected
      exact .act (.lost hseat hauto hconnected)
    · rename_i hconnected
      exact .trans (.act (.down hseat fun _ => hconnected)) (.act (.wire (.arm _)))
  · rename_i hauto
    exact .act (.down hseat fun h => absurd h hauto)

theorem orderly_onReceived (bytes : List UInt8) :
    Orderly true (onReceived bytes : Run Unit) := by
  intro carryOut hcalls s hheld
  obtain ⟨seat, hseat, _⟩ := hheld rfl
  unfold onReceived
  rw [bind_client hseat]
  exact .receive bytes hseat (passage_messages hcalls _)

theorem orderly_onLink (event : LinkEvent) : Orderly true (onLink event : Run Unit) := by
  cases event with
  | connected => exact orderly_onConnected
  | disconnected => exact orderly_onDisconnected
  | received bytes => exact orderly_onReceived bytes

end Client

/-! ## Commands -/

namespace Run

theorem orderly_holdingLoader {x : Run α} (hx : Orderly held x) (serial : Nat) :
    Orderly held (holdingLoader serial x) := by
  have htend (f : Tenure → Tenure) : Orderly held (modify (·.tendLoader serial f) : Run Unit) :=
    orderly_aside fun _ => ⟨rfl, rfl, rfl, rfl⟩
  exact .bind (htend _) fun _ => .bind hx fun _ => .bind (htend _) fun _ => orderly_pure _

theorem orderly_work {job : Job LinkEvent} (hjob : job ≠ .drain) : Orderly held (work job) := by
  intro carryOut hcalls s hheld
  cases job with
  | drain => exact absurd rfl hjob
  | own event =>
    change Passage [] s ((if s.client.isSome then holdingClient (Client.onLink event) else pure () :
      Run Unit) carryOut s).2
    split
    · rename_i hs
      apply passage_holdingClient hs
      exact Client.orderly_onLink event carryOut hcalls _ fun _ => held_hold hs
    · exact .refl s
  | retry =>
    change Passage [] s ((if s.client.isSome then Station.work (fun _ => pure ()) .retry
      else pure () : Run Unit) carryOut s).2
    split
    · exact orderly_retry carryOut hcalls s hheld
    · exact .refl s

theorem drain_apply (carryOut : Callback → Session → Session) (s : Session) :
    (work .drain carryOut s).2 =
      if s.client.isSome then { s with wire := s.wire.drain } else s := by
  change ((if s.client.isSome then Station.work (fun _ => pure ()) .drain else pure () : Run Unit)
    carryOut s).2 = _
  split <;> rfl

section

variable {carryOut : Callback → Session → Session} {s : Session}

/-- The job at the front is taken off the agenda and done. -/
theorem passage_next (hcalls : ∀ callback s, Passage [] s (carryOut callback s))
    {job : Job LinkEvent} {rest : List (Job LinkEvent)}
    (htasks : s.wire.agenda.tasks = job :: rest) :
    Passage [] s (work job carryOut { s with wire := s.wire.withTasks rest }).2 := by
  -- A drain shows the message that it takes, so taking the job and doing it are one act. Any
  -- other job is taken first and makes a passage of its own.
  by_cases hjob : job = .drain
  · subst hjob
    rw [drain_apply]
    split
    · rename_i hsome
      exact .act (.drain hsome htasks)
    · rename_i hnone
      exact .act (.pass (Option.not_isSome_iff_eq_none.mp hnone) htasks)
  · have htaken := Passage.act (.wire (.next htasks hjob))
    have hwork : Orderly false (work job) := orderly_work hjob
    exact htaken.trans (hwork carryOut hcalls _ nofun)

theorem runUntilIdle_nil (h : s.wire.agenda.tasks = []) (fuel : Nat) :
    (Station.runUntilIdle work fuel carryOut s).2 = s := by
  obtain ⟨_, _, _, _, _, _, _, _, _, _, ⟨⟨tasks, _, _, _⟩, _, _, _, _⟩, _⟩ := s
  cases h
  cases fuel <;> rfl

theorem runUntilIdle_cons {job : Job LinkEvent} {rest : List (Job LinkEvent)}
    (h : s.wire.agenda.tasks = job :: rest) (fuel : Nat) :
    (Station.runUntilIdle work (fuel + 1) carryOut s).2 =
      (Station.runUntilIdle work fuel carryOut
        (work job carryOut { s with wire := s.wire.withTasks rest }).2).2 := by
  obtain ⟨_, _, _, _, _, _, _, _, _, _, ⟨⟨tasks, _, _, _⟩, _, _, _, _⟩, _⟩ := s
  cases h
  rfl

theorem orderly_idle (fuel : Nat) : Orderly held (Station.runUntilIdle work fuel) := by
  induction fuel with
  | zero => exact orderly_pure _
  | succ fuel ih =>
    intro carryOut hcalls s hs
    cases htasks : s.wire.agenda.tasks with
    | nil =>
      rw [runUntilIdle_nil htasks]
      exact .refl s
    | cons job rest =>
      rw [runUntilIdle_cons htasks]
      have hnext := passage_next hcalls htasks
      exact hnext.trans (ih carryOut hcalls _ fun hheld => hnext.course.keeps_held (hs hheld))

theorem fire_nil (h : s.wire.agenda.timers = []) (fuel : Nat) :
    (Station.fire work fuel carryOut s).2 = s := by
  obtain ⟨_, _, _, _, _, _, _, _, _, _, ⟨⟨_, timers, _, _⟩, _, _, _, _⟩, _⟩ := s
  cases h
  rfl

theorem fire_cons {timer : Timer (Job LinkEvent)} {rest : List (Timer (Job LinkEvent))}
    (h : s.wire.agenda.timers = timer :: rest) (fuel : Nat) :
    (Station.fire work fuel carryOut s).2 =
      (Station.runUntilIdle work fuel carryOut
        (work timer.task carryOut { s with wire := s.wire.withTimers rest }).2).2 := by
  obtain ⟨_, _, _, _, _, _, _, _, _, _, ⟨⟨_, timers, _, _⟩, _, _, _, _⟩, _⟩ := s
  cases h
  rfl

/-- The first timer is taken and its job is done. -/
theorem passage_timer (hcalls : ∀ callback s, Passage [] s (carryOut callback s))
    {timer : Timer (Job LinkEvent)} {rest : List (Timer (Job LinkEvent))}
    (htimers : s.wire.agenda.timers = timer :: rest) :
    Passage [] s (work timer.task carryOut { s with wire := s.wire.withTimers rest }).2 := by
  have hfewer : s.wire.Apart (s.wire.withTimers rest) :=
    .fewer fun later hlater => htimers ▸ List.mem_cons_of_mem _ hlater
  have htaken := Passage.act (.wire hfewer)
  by_cases hjob : timer.task = .drain
  · rw [hjob, drain_apply]
    split
    · exact .act (.timed htimers hjob)
    · exact htaken
  · have hwork : Orderly false (work timer.task) := orderly_work hjob
    exact htaken.trans (hwork carryOut hcalls _ nofun)

theorem orderly_fire (fuel : Nat) : Orderly held (Station.fire work fuel) := by
  intro carryOut hcalls s hs
  cases htimers : s.wire.agenda.timers with
  | nil =>
    rw [fire_nil htimers]
    exact .refl s
  | cons timer rest =>
    rw [fire_cons htimers]
    have htimer := passage_timer hcalls htimers
    exact htimer.trans
      (orderly_idle fuel carryOut hcalls _ fun hheld => htimer.course.keeps_held (hs hheld))

end

theorem orderly_withLoader {act : Loader → Run Reply} (hact : ∀ l, Orderly held (act l)) :
    Orderly held (withLoader act) := by
  refine .bind orderly_get fun s => ?_
  split
  · exact orderly_holdingLoader (hact _) _
  · exact orderly_pure _

theorem orderly_files (files : Session → FileTree) :
    Orderly held (modify fun s => { s with files := files s } : Run Unit) :=
  orderly_aside fun _ => ⟨rfl, rfl, rfl, rfl⟩

theorem orderly_seatLoader (loader : Loader) :
    Orderly held (modify (·.seatLoader loader) : Run Unit) := by
  refine orderly_modify fun s => .act (.aside ?_ ?_ ?_ ?_)
  all_goals
    unfold Session.seatLoader
    dsimp only
    split <;> rfl

theorem orderly_loader (command : LoaderCommand) : Orderly held (loader command) := by
  unfold loader
  cases command with
  | attach loader =>
    refine .bind (closed_orderly.attach loader) fun result => ?_
    split
    · exact orderly_pure _
    · exact .bind (orderly_seatLoader loader) fun _ => orderly_pure _
  | detach =>
    refine .bind orderly_get fun s => ?_
    split
    · exact .bind (orderly_aside fun _ => ⟨rfl, rfl, rfl, rfl⟩) fun _ => orderly_pure _
    · exact orderly_pure _
  | trigger =>
    exact orderly_withLoader fun l => .bind orderly_get fun s =>
      .bind (closed_orderly.trigger l s.files) fun _ => orderly_pure _
  | status => exact orderly_withLoader fun l => .bind orderly_get fun s => orderly_pure _
  | run action path =>
    exact orderly_withLoader fun l => .bind orderly_get fun s =>
      .bind (closed_orderly.run l s.files action path) fun _ => orderly_pure _
  | writeFile path bytes =>
    exact .bind (orderly_files fun s => s.files.write path bytes) fun _ => orderly_pure _
  | makeDirectory path =>
    exact .bind (orderly_files fun s => s.files.makeDirectory path) fun _ => orderly_pure _
  | deleteFile path =>
    exact .bind orderly_get fun s =>
      .bind (orderly_files fun _ => (s.files.delete path).2) fun _ => orderly_pure _

theorem orderly_receiver (command : ReceiverCommand) : Orderly held (receiver command) := by
  cases command with
  | insertFilter _ | eraseFilter _ =>
    exact .bind (orderly_aside fun _ => ⟨rfl, rfl, rfl, rfl⟩) fun _ => orderly_pure _
  | update update =>
    exact .bind (closed_orderly.applyUpdate orderly_filter update) fun _ => orderly_pure _
  | handle message => exact .bind (orderly_carryOut message) fun _ => orderly_pure _
  | outbound _ => exact orderly_pure _
  | _ => exact .bind orderly_get fun s => orderly_pure _

theorem isSome_of_owned? {s : Session} {c : Client Completion} (h : s.owned? = some c) :
    s.client.isSome = true := by
  unfold Session.owned? at h
  split at h
  · simp [*]
  · simp at h

theorem orderly_withClient {act : Client Completion → Run Reply}
    (hact : ∀ c, Orderly true (act c)) : Orderly held (withClient act) := by
  intro carryOut hcalls s _
  rw [withClient, get_bind]
  cases howned : s.owned? with
  | none => exact .refl s
  | some c =>
    have hs := isSome_of_owned? howned
    apply passage_holdingClient hs
    exact hact c carryOut hcalls _ fun _ => held_hold hs

theorem orderly_request (r : Request) (completion : Completion) :
    Orderly held (request r completion) := by
  refine orderly_withClient fun _ => ?_
  cases r with
  | subscribe ids => exact .bind (Client.orderly_subscribe ids completion) fun _ => orderly_pure _
  | subscribeAll => exact .bind (Client.orderly_subscribeAll completion) fun _ => orderly_pure _
  | multiGet ids => exact .bind (Client.orderly_multiGet ids completion) fun _ => orderly_pure _
  | multiSet values =>
    exact .bind (Client.orderly_multiSet values completion) fun _ => orderly_pure _

theorem orderly_dropClient : Orderly held dropClient := by
  have hcount : Orderly held timerCount := .bind orderly_get fun s => orderly_pure _
  refine .bind hcount fun before => .bind (orderly_modify fun _ => .act .release) fun _ => ?_
  exact .bind hcount fun after => .bind (orderly_idle _) fun count =>
    .bind (orderly_notify _) fun _ => orderly_pure _

theorem orderly_clientCommand (command : ClientCommand) : Orderly held (client command) := by
  unfold client
  cases command with
  | start => exact orderly_withClient fun _ => .bind Client.orderly_start fun _ => orderly_pure _
  | shutdown =>
    exact orderly_withClient fun _ => .bind Client.orderly_shutdown fun _ => orderly_pure _
  | unsubscribeAll =>
    exact orderly_withClient fun _ => .bind Client.orderly_unsubscribeAll fun _ => orderly_pure _
  | cancel sequence =>
    exact orderly_withClient fun _ => .bind (Client.orderly_cancel sequence) fun _ => orderly_pure _
  | register root =>
    exact orderly_withClient fun _ =>
      .bind (Client.orderly_registerEntry root) fun _ => orderly_pure _
  | owner id => exact orderly_withClient fun _ => .bind orderly_get fun s => orderly_pure _
  | drop =>
    refine .bind orderly_get fun s => ?_
    split
    · exact orderly_dropClient
    · exact orderly_pure _

theorem orderly_wireCommand (command : WireCommand) : Orderly held (wire command) := by
  cases command with
  | run => exact .bind (orderly_idle _) fun _ => orderly_pure _
  | fire => exact .bind (orderly_fire patience) fun _ => orderly_pure _
  | armed | attempts | frames => exact .bind orderly_get fun s => orderly_pure _
  | reachable reachable =>
    have hreach : Orderly held (modify fun s => { s with
        wire := { s.wire with link := { s.wire.link with reachable } } } : Run Unit) :=
      orderly_modify fun _ => .act (.wire (.relink rfl))
    exact .bind hreach fun _ => orderly_pure _
  | close =>
    have hclose : Orderly held (modify fun s => { s with
        wire := { s.wire with link := s.wire.link.close } } : Run Unit) :=
      orderly_modify fun s => .act (.link s.wire.link.close)
    exact .bind hclose fun _ => orderly_pure _
  | lose => exact .bind orderly_lose fun _ => orderly_pure _
  | connect => exact .bind orderly_connect fun _ => orderly_pure _
  | sent =>
    intro carryOut _ s _
    exact .act (.wire (.relink rfl))
  | inject bytes chunk run =>
    refine .bind (orderly_forM fun piece => orderly_notify _) fun _ => ?_
    split
    · exact .bind (orderly_idle _) fun _ => orderly_pure _
    · exact orderly_pure _

theorem orderly_observe (observer : Observer) :
    Orderly held (modify (·.observe observer) : Run Unit) := by
  refine orderly_modify fun s => .act (.aside ?_ ?_ ?_ ?_)
  all_goals
    unfold Session.observe Session.unobserve
    dsimp only
    split <;> rfl

theorem orderly_unobserve (name : String) :
    Orderly held (modify (·.unobserve name) : Run Unit) := by
  refine orderly_modify fun s => .act (.aside ?_ ?_ ?_ ?_)
  all_goals
    unfold Session.unobserve
    split <;> rfl

theorem orderly_act (command : Command) : Orderly held (act command) := by
  cases command with
  | invalid _ => exact orderly_pure _
  | query _ => exact .bind orderly_get fun s => orderly_pure _
  | change c => exact .bind (closed_orderly.perform c) fun _ => orderly_pure _
  | observe _ _ _ _ => exact .bind (orderly_observe _) fun _ => orderly_pure _
  | unobserve name =>
    exact .bind orderly_get fun s => .bind (orderly_unobserve name) fun _ => orderly_pure _
  | fragment command text => exact closed_orderly.fragment command text
  | loader command => exact orderly_loader command
  | receiver command => exact orderly_receiver command
  | request r _ _ _ => exact orderly_request r _
  | client command => exact orderly_clientCommand command
  | wire command => exact orderly_wireCommand command

/-! ## Callbacks -/

theorem orderly_react (name : String) (reaction : List Command) (limit : Nat) :
    Orderly held (react name reaction limit) := by
  refine .bind orderly_get fun s => ?_
  split
  · refine .bind (orderly_aside fun _ => ⟨rfl, rfl, rfl, rfl⟩) fun _ => ?_
    refine orderly_forM fun command => ?_
    exact .bind (orderly_act command) fun _ => orderly_log _
  · exact orderly_pure _

theorem orderly_callback (callback : Callback) : Orderly held (perform callback) := by
  cases callback with
  | react name reaction limit => exact orderly_react name reaction limit
  | trigger serial =>
    refine .bind orderly_get fun s => ?_
    split
    · rename_i loader _
      refine orderly_holdingLoader (.bind orderly_get fun s => ?_) serial
      exact .bind (closed_orderly.trigger loader s.files) fun _ => orderly_pure _
    · exact orderly_pure _

/-- Callbacks make passages, however deep they nest. -/
theorem passage_carryOut (fuel : Nat) (callback : Callback) (s : Session) :
    Passage [] s (carryOut fuel callback s) := by
  induction fuel generalizing callback s with
  | zero => exact .act (.aside rfl rfl rfl rfl)
  | succ fuel ih =>
    have h : Orderly false (perform callback) := orderly_callback callback
    exact h (carryOut fuel) ih s nofun

end Run

/-! ## Sessions -/

namespace Session

theorem passage_step (s : Session) (command : Command) : Passage [] s (s.step command).2 := by
  have h : Orderly false (Run.act command) := Run.orderly_act command
  exact h _ (Run.passage_carryOut _) s nofun

/-- Whatever is asked of a session, it is a passage. -/
theorem passage_steps (s : Session) (commands : List Command) :
    Passage [] s (s.steps commands).2 := by
  induction commands generalizing s with
  | nil => exact .refl s
  | cons command rest ih =>
    have hcleared : Passage [] (s.step command).2 { (s.step command).2 with log := [] } :=
      .act (.aside rfl rfl rfl rfl)
    exact ((s.passage_step command).trans hcleared).trans (ih _)

/-- The client and its journal keep to a course. -/
theorem course_steps (s : Session) (commands : List Command) :
    Course [] s (s.steps commands).2 :=
  (s.passage_steps commands).course

end Session

end ValueTree
