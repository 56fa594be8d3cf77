import ValueTree.Proofs.Session.Trail
import ValueTree.Proofs.Sync.Admission
import ValueTree.Proofs.Sync.Echo
import ValueTree.Proofs.Sync.Placeholders

/-!
# Reading values

A client that asks for values holds their places until the authority answers. When the completion of
its request runs, each value that the filter lets in has taken its place. In the entries of other
applications the places are still empty, although the request was a success.
-/

namespace ValueTree

/-! ## Places -/

/-- Each id has one value, with a payload that fits its own declaration. -/
def Answers (ids : List Id) (values : List Value) : Prop :=
  ∀ id ∈ ids, ∃ value, values.filter (·.id = id) = [value] ∧ value.payload.validate = .ok ()

/-- What stands in the place of an id once values have come in. -/
def Filter.reading (f : Filter) (values : List Value) (id : Id) : Value :=
  if f.isForeign id then .placeholder id
  else { id, payload := ((values.find? (·.id = id)).map (·.payload.normalize)).getD .unset }

theorem Filter.hides_of_has {f : Filter} {s : Store} {id : Id} (h : s.has id = true) :
    f.hides s id = f.isForeign id := by
  have hnearest : s.nearest? id ≠ none := Store.nearest?_ne_none.mpr ⟨id, Id.startsWith_self id, h⟩
  have hsome : (s.nearest? id).isNone = false := by
    rwa [Option.isNone_eq_false_iff, Option.isSome_iff_ne_none]
  rw [hides, hsome, Bool.false_or]
  cases hroots : f.roots with
  | nil =>
    have hnone : f.root? id = none := by simp [root?, hroots]
    simp [isForeign, hnone]
  | cons root rest => rfl

theorem Value.settle_placeholder {value : Value} (h : value.payload.validate = .ok ()) :
    value.settle (some { value := .placeholder value.id }) =
      some { value := { id := value.id, payload := value.payload.normalize } } := by
  have hassign {status : SetStatus} {payload : Payload}
      (h : Payload.unset.assign value.payload = .ok (status, payload)) :
      (Value.placeholder value.id).assign value.payload =
        .ok (status, { id := value.id, payload }) := by
    change (Payload.unset.assign value.payload).map _ = _
    rw [h]
    rfl
  have hplain : (Value.placeholder value.id).kind.isStructural = false := rfl
  have hunset : Payload.unset.kind = .unset := rfl
  rw [settle, hplain, if_neg Bool.false_ne_true]
  by_cases hkind : value.payload.kind = .unset
  · have hnothing : value.payload = .unset := by
      cases hpayload : value.payload <;> rw [hpayload] at hkind <;> cases hkind
    rw [hassign (by rw [Payload.assign, if_pos hunset, if_pos hkind]), hnothing]
    rfl
  · rw [hassign (by rw [Payload.assign, if_pos hunset, if_neg hkind, h]; rfl)]

namespace Store

variable {s : Store} {f : Filter} {x : Id} {ids : List Id} {values : List Value}

theorem node?_letInAll : (s.letInAll f values).node? x =
    if f.hides s x then s.node? x
    else (values.filter (·.id = x)).foldl (fun node? value => value.settle node?) (s.node? x) := by
  induction values generalizing s with
  | nil => simp [letInAll]
  | cons value rest ih =>
    have hfirst : s.letInAll f (value :: rest) = (s.letIn f value).letInAll f rest := rfl
    rw [hfirst, ih, hides_letIn, node?_letIn]
    cases f.hides s x <;> by_cases hx : value.id = x <;> simp [hx]

/-- The values come to stand in the places that were laid for them. -/
theorem get?_letInAll_expect (hroot : ∀ id ∈ ids, id.isRoot = false) (h : Answers ids values)
    (hx : x ∈ ids) :
    ((({} : Store).expect ids).letInAll f values).get? x = some (f.reading values x) := by
  have hoverlaid := overlaid_expect {} ids
  have hawaits : ({} : Store).Awaits ids x := ⟨hx, hroot x hx, by simp [has]⟩
  have hnode := (hoverlaid.held hawaits).1
  obtain ⟨value, hone, hvalid⟩ := h x hx
  have hid : value.id = x := by
    have hmem : value ∈ values.filter (·.id = x) := by simp [hone]
    simpa using (List.mem_filter.mp hmem).2
  rw [get?, node?_letInAll, Filter.hides_of_has (hoverlaid.has_of_held hawaits), hnode,
    Filter.reading, hone, ← List.head?_filter, hone]
  cases f.isForeign x with
  | true => rfl
  | false =>
    subst hid
    simp only [Bool.false_eq_true, if_false, List.foldl_cons, List.foldl_nil,
      Value.settle_placeholder hvalid]
    rfl

end Store

/-! ## Nobody else around -/

/-- Only the main observer and the client listen. -/
def Session.Alone (s : Session) : Prop :=
  s.listeners.snapshot = [.observer { name := Observer.main }, .client]

/-- The session has come to another store. The main observer has heard of it, and nothing was sent. -/
structure Session.Restocked (s : Session) (store : Store) (t : Session) : Prop where
  store : t.store = store
  filter : t.filter = s.filter
  listeners : t.listeners = s.listeners
  client : t.client = s.client
  wire : t.wire = s.wire
  journal : t.journal = s.journal
  log : ∃ events : List Event, t.log = s.log ++ events.map .event

namespace Session.Restocked

variable {s t u : Session} {store store' : Store}

theorem refl (s : Session) : s.Restocked s.store s := ⟨rfl, rfl, rfl, rfl, rfl, rfl, [], by simp⟩

theorem trans (h : s.Restocked store t) (h' : t.Restocked store' u) : s.Restocked store' u where
  store := h'.store
  filter := h'.filter.trans h.filter
  listeners := h'.listeners.trans h.listeners
  client := h'.client.trans h.client
  wire := h'.wire.trans h.wire
  journal := h'.journal.trans h.journal
  log := by
    obtain ⟨events, hevents⟩ := h.log
    obtain ⟨more, hmore⟩ := h'.log
    exact ⟨events ++ more, by rw [hmore, hevents, List.append_assoc, List.map_append]⟩

theorem alone (h : s.Restocked store t) (hs : s.Alone) : t.Alone := by
  unfold Alone
  rw [h.listeners]
  exact hs

end Session.Restocked

namespace Run

variable {α : Type} {s : Session}

/-- A callback without commands does nothing. -/
theorem restocked_nothing (fuel : Nat) (name : String) (s : Session) :
    s.Restocked s.store (carryOut fuel (.react name [] 0) s) := by
  cases fuel <;> exact ⟨rfl, rfl, rfl, rfl, rfl, rfl, [], (List.append_nil _).symm⟩

theorem restocked_hear_main (event : Event) (fuel : Nat) :
    s.Restocked s.store
      (hear event (.observer { name := Observer.main }) (carryOut fuel) s).2 := by
  let heard := (s.mark (.handed (.observer Observer.main) event)).write (.event event)
  have hheard : s.Restocked s.store heard := ⟨rfl, rfl, rfl, rfl, rfl, rfl, [event], rfl⟩
  exact hheard.trans (restocked_nothing fuel Observer.main heard)

theorem restocked_hear_client {event : Event} (hsilent : event.message? = none)
    (calls : Callback → Session → Session) :
    s.Restocked s.store (hear event .client calls s).2 := by
  have hrun : (hear event .client calls s).2 = s.mark (.handed .client event) := by
    change (relayed event calls (s.mark (.handed .client event))).2 = _
    unfold relayed
    rw [get_bind, hsilent]
    split <;> rfl
  rw [hrun]
  exact ⟨rfl, rfl, rfl, rfl, rfl, rfl, [], (List.append_nil _).symm⟩

theorem restocked_deliver (hs : s.Alone) {event : Event} (hsilent : event.message? = none)
    (fuel : Nat) : s.Restocked s.store (deliver event (carryOut fuel) s).2 := by
  unfold deliver
  rw [get_bind, hs]
  have hmain := restocked_hear_main (s := s) event fuel
  have hclient (t : Session) := restocked_hear_client (s := t) hsilent (carryOut fuel)
  exact hmain.trans (hmain.store ▸ hclient _)

theorem restocked_change (hs : s.Alone) (step : Store → Outcome α)
    (hsilent : ∀ event ∈ (step s.store).events, event.message? = none) (fuel : Nat) :
    s.Restocked (step s.store).store
      ((Host.change step : Run (Except StoreError α)) (carryOut fuel) s).2 := by
  have hdeliver (events : List Event) (hevents : ∀ event ∈ events, event.message? = none)
      {t : Session} (ht : t.Alone) :
      t.Restocked t.store ((events.forM deliver : Run Unit) (carryOut fuel) t).2 := by
    induction events generalizing t with
    | nil => exact .refl t
    | cons event rest ih =>
      have hfirst := restocked_deliver ht (hevents event List.mem_cons_self) fuel
      have hrest := ih (fun event hevent => hevents event (List.mem_cons_of_mem _ hevent))
        (hfirst.alone ht)
      rw [hfirst.store] at hrest
      exact hfirst.trans hrest
  let changed : Session :=
    { s.mark (.made (step s.store).events) with store := (step s.store).store }
  have hchanged : s.Restocked (step s.store).store changed :=
    ⟨rfl, rfl, rfl, rfl, rfl, rfl, [], (List.append_nil _).symm⟩
  exact hchanged.trans (hdeliver _ hsilent (hchanged.alone hs))

theorem restocked_applyValue (hs : s.Alone) (value : Value) (fuel : Nat) :
    s.Restocked (s.store.letIn s.filter value)
      ((Receiver.applyValue value : Run Bool) (carryOut fuel) s).2 := by
  have hrun : (Receiver.applyValue value : Run Bool) (carryOut fuel) s =
      (if s.filter.hides s.store value.id then pure false
      else if ((s.store.kind? value.id).map Kind.isStructural).getD false then pure true
      else do pure (Receiver.went (← Host.setValue value .remote)) : Run Bool)
        (carryOut fuel) s := rfl
  rw [hrun, Store.letIn, Store.takeOver]
  split
  · exact .refl s
  · split
    · exact .refl s
    · exact restocked_change hs (·.setValue value .remote)
        (fun event hevent => (Store.silent_write hevent).message?) fuel

theorem restocked_applyResult (hs : s.Alone) (values : List Value) (fuel : Nat) :
    s.Restocked (s.store.letInAll s.filter values)
      ((Receiver.applyResult .success values : Run Unit) (carryOut fuel) s).2 := by
  change s.Restocked _ ((values.forM fun value => do
    let _ ← (Receiver.applyValue value : Run Bool)) (carryOut fuel) s).2
  induction values generalizing s with
  | nil => exact .refl s
  | cons value rest ih =>
    have hfirst := restocked_applyValue hs value fuel
    have hrest := ih (hfirst.alone hs)
    rw [hfirst.store, hfirst.filter] at hrest
    exact hfirst.trans hrest

theorem restocked_materialize (hs : s.Alone) (ids : List Id) (fuel : Nat) :
    s.Restocked (s.store.expect ids)
      ((Client.materialize ids : Run Unit) (carryOut fuel) s).2 := by
  induction ids generalizing s with
  | nil => exact .refl s
  | cons id rest ih =>
    have hthis : (Client.materialize [id] : Run Unit) (carryOut fuel) s =
        (if !id.isRoot && !s.store.has id then do
          let _ ← (Host.declare id .unset .readWrite : Run (Except StoreError SetStatus))
        else pure () : Run Unit) (carryOut fuel) s := rfl
    have hfirst : s.Restocked
        (if !id.isRoot && !s.store.has id then s.store.add (.placeholder id) else s.store)
        ((Client.materialize [id] : Run Unit) (carryOut fuel) s).2 := by
      rw [hthis]
      split
      · rename_i hnew
        rw [Bool.and_eq_true, Bool.not_eq_true', Bool.not_eq_true'] at hnew
        have hdeclare := Store.declare_placeholder hnew.2
        have hsilent : ∀ event ∈ (s.store.declare id .unset .readWrite).events,
            event.message? = none := by
          rw [hdeclare]
          rintro event (_ | ⟨_, ⟨⟩⟩)
          rfl
        have hchanged := restocked_change hs (·.declare id .unset .readWrite) hsilent fuel
        rw [hdeclare] at hchanged
        exact hchanged
      · exact .refl s
    have hrest := ih (hfirst.alone hs)
    rw [hfirst.store] at hrest
    exact hfirst.trans hrest

end Run

/-! ## Asking and being answered -/

/-- The session in which the completion of a result is run. -/
def Session.completing (s : Session) (n : UInt32) (completion : Completion) (ok : Bool) : Session :=
  let told := ((s.write (.result n ok)).record (.answered n ok)).tendClient Tenure.hold
  let taken := told.adjustClient fun c => (c.take n).2
  (taken.record (.ran n completion ok)).write (.completed completion.tag ok)

theorem Session.journal_completing (s : Session) (n : UInt32) (completion : Completion)
    (ok : Bool) : (s.completing n completion ok).journal.getLast? = some (.ran n completion ok) :=
  List.getLast?_concat

theorem Session.store_completing (s : Session) (n : UInt32) (completion : Completion)
    (ok : Bool) : (s.completing n completion ok).store = s.store :=
  store_tendClient _ _

/-- The session in which a request for values has gone into the outbox. -/
def Session.requesting (s : Session) (ids : List Id) (completion : Completion) (n : UInt32) :
    Session :=
  let registered := s.adjustClient fun c => (c.register completion).2
  let recorded := (registered.record (.allocated n)).record (.registered n completion)
  { recorded with wire := recorded.wire.push (.multiGet n ids) }

/-- The session waits for the answer to a request for some ids, and nothing else has come. -/
structure Waits (filter : Filter) (ids : List Id) (completion : Completion) (s : Session) :
    Prop where
  alone : s.Alone
  store : s.store = Store.expect {} ids
  filter : s.filter = filter
  client : ∃ seat, s.client = some seat ∧ seat.client.listening = true ∧
    seat.client.pending.lookup 1 = some completion

namespace Run

variable {s : Session} {seat : ClientSeat} {carryOut : Callback → Session → Session} {n : UInt32}
  {completion : Completion} {ok : Bool}

theorem onResult_apply (hseat : s.client = some seat)
    (hpending : seat.client.pending.lookup n = some completion) :
    ((Client.onResult n ok : Run Unit) carryOut s).2 =
      carryOut (.react ("completion:" ++ completion.tag) completion.reaction completion.limit)
        (((s.adjustClient fun c => (c.take n).2).record (.ran n completion ok)).write
          (.completed completion.tag ok)) := by
  have htake : (seat.client.take n).1 = some completion := hpending
  unfold Client.onResult
  rw [bind_client hseat]
  simp only [htake]
  rfl

/-- A result that is waited for runs its completion. -/
theorem answered_apply (hseat : s.client = some seat) (hlistening : seat.client.listening = true)
    (hpending : seat.client.pending.lookup n = some completion) :
    ((Receiver.answered n ok : Run Unit) carryOut s).2 =
      (carryOut (.react ("completion:" ++ completion.tag) completion.reaction completion.limit)
        (s.completing n completion ok)).tendClient Tenure.letGo := by
  have htold : ((s.write (.result n ok)).record (.answered n ok)).client = some seat := hseat
  rw [answered_some hseat, if_pos hlistening]
  exact congrArg (Session.tendClient · Tenure.letGo)
    (onResult_apply (Course.client_hold htold) hpending)

/-- A request for values lays their places, and then it goes into the outbox. -/
theorem multiGet_apply (hs : s.Alone) (hseat : s.client = some seat) (ids : List Id)
    (completion : Completion) (fuel : Nat) :
    ∃ t, s.Restocked (s.store.expect ids) t ∧
      ((Client.multiGet ids completion : Run UInt32) (Run.carryOut fuel) s).2 =
        t.requesting ids completion seat.client.nextSequence := by
  have hlaid := restocked_materialize hs ids fuel
  have hregister (t : Session) (ht : t.client = some seat) :
      (Client.registerCompletion completion : Run UInt32) (Run.carryOut fuel) t =
        (seat.client.nextSequence,
          ((t.adjustClient fun c => (c.register completion).2).record
            (.allocated seat.client.nextSequence)).record
              (.registered seat.client.nextSequence completion)) := by
    unfold Client.registerCompletion
    rw [bind_client ht]
    rfl
  refine ⟨_, hlaid, ?_⟩
  rw [Client.multiGet, bind_apply, bind_apply, hregister _ (hlaid.client.trans hseat)]
  rfl

/-- Who asks for values waits for them. -/
theorem waits_multiGet (files : FileTree) (config : ClientConfig) (ids : List Id)
    (completion : Completion) (fuel : Nat) :
    Waits (Client.initialFilter config) ids completion
      ((Client.multiGet ids completion : Run UInt32) (Run.carryOut fuel)
        ((Session.fresh files).seatClient config)).2 := by
  obtain ⟨t, hlaid, hrun⟩ := multiGet_apply (s := (Session.fresh files).seatClient config) rfl
    rfl ids completion fuel
  have hclient : t.client = some { client := Client.new config, listener := 1 } := hlaid.client
  have hregistered := Course.client_adjustClient hclient fun c => (c.register completion).2
  rw [hrun]
  exact ⟨hlaid.alone rfl, hlaid.store, hlaid.filter, _, hregistered, rfl, rfl⟩

/-- When the completion runs, the values are in their places. -/
theorem carryOut_result {filter : Filter} {ids : List Id} (h : Waits filter ids completion s)
    (values : List Value) (fuel : Nat) :
    ∃ t, (s.record (.began (.result 1 .success values))).Restocked
        ((Store.expect {} ids).letInAll filter values) t ∧
      ((Client.carryOut (.result 1 .success values) : Run Unit) (Run.carryOut fuel) s).2 =
        ((Run.carryOut fuel
          (.react ("completion:" ++ completion.tag) completion.reaction completion.limit)
          (t.completing 1 completion true)).tendClient Tenure.letGo).record
            (.ended (.result 1 .success values)) := by
  obtain ⟨seat, hseat, hlistening, hpending⟩ := h.client
  have hplaced := restocked_applyResult (s := s.record (.began (.result 1 .success values)))
    h.alone values fuel
  have hstore : (s.record (.began (.result 1 .success values))).store = Store.expect {} ids :=
    h.store
  have hfilter : (s.record (.began (.result 1 .success values))).filter = filter := h.filter
  rw [hstore, hfilter] at hplaced
  exact ⟨_, hplaced, congrArg (Session.record · (.ended (.result 1 .success values)))
    (answered_apply (hplaced.client.trans hseat) hlistening hpending)⟩

end Run

end ValueTree
