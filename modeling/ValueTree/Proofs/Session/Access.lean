import ValueTree.Proofs.Session.Trail
import ValueTree.Proofs.Store.Access

/-!
# Values that only their owner writes

A value of the authority comes with an access mode, which counts if the value is new to the client.
Who has subscribed to an id or asked for it holds an open value there already, so what comes in is
as open as that, whatever the authority says.
-/

namespace ValueTree

/-! ## What comes in -/

def Update.value? : Update → Option Value
  | .set value => some value
  | _ => none

/-- The values that a message tells of, in their order. -/
def Message.values : Message → List Value
  | .valueChanged updates => updates.filterMap Update.value?
  | .result _ .success values => values
  | _ => []

/-- The id is not there, or its value says nothing. -/
def Store.Blank (s : Store) (id : Id) : Prop :=
  ∀ value, s.get? id = some value → value.payload = .unset

/-- One trail or another. -/
def Session.Leads (s t : Session) : Prop := ∃ moments, Trail moments s t

namespace Session.Leads

variable {messages : List Message} {s t u : Session}

theorem trans (h : s.Leads t) (h' : t.Leads u) : s.Leads u := by
  obtain ⟨_, h⟩ := h
  obtain ⟨_, h'⟩ := h'
  exact ⟨_, h.append h'⟩

theorem of_passage (h : Passage messages s t) : s.Leads t := Trail.of_passage h

end Session.Leads

/-- A value of the authority is taken over: `t` is the session right after it is in place, before
anybody hears of it, and `u` the one when everybody has. -/
structure Applied (value : Value) (s t u : Session) : Prop where
  reached : s.Leads t
  heard : t.Leads u
  store : t.store = (s.store.setValue value .remote).store
  /-- The access mode that the value came with counts only if there was none. -/
  access : t.store.access? value.id = some ((s.store.access? value.id).getD value.access)
  /-- The access mode decides whether a local write is refused. -/
  guarded : t.store.access? value.id = some .readOnly → t.store.Guarded value.id
  unguarded : t.store.access? value.id = some .readWrite → t.store.Unguarded value.id

/-- At some moment on the way the id goes, or its owner declares it. -/
def Session.Resettles (x : Id) (s t : Session) : Prop :=
  ∃ v w moment, s.Leads v ∧ Instant v moment w ∧ w.Leads t ∧ v.store.Resettled x w.store

/-! ## Taking over a value -/

namespace Run

variable {α : Type} {carryOut : Callback → Session → Session} {s : Session} {value : Value}

theorem leads_change (hcalls : ∀ callback s, Passage [] s (carryOut callback s))
    (step : Store → Outcome α)
    (hstep : s.store.Turn (step s.store).store (step s.store).events) :
    ∃ t, s.Leads t ∧ t.store = (step s.store).store ∧
      t.Leads ((Host.change step : Run (Except StoreError α)) carryOut s).2 := by
  obtain ⟨declared, hstore⟩ := hstep.step
  have hmarked : Instant s .quiet (s.mark (.made (step s.store).events)) :=
    .act (.aside rfl rfl rfl rfl)
  have hdeliver : Orderly false ((step s.store).events.forM deliver : Run Unit) :=
    orderly_forM orderly_deliver
  refine ⟨_, ⟨_, .cons hmarked (.single (.act (.store hstore)))⟩, rfl, ?_⟩
  exact .of_passage (hdeliver carryOut hcalls _ nofun)

/-- Nothing else than a write makes a value go through that is not there yet. -/
theorem applyValue_of_blank (hblank : s.store.Blank value.id)
    (happlied : ((Receiver.applyValue value : Run Bool) carryOut s).1 = true) :
    ∃ status, (s.store.setValue value .remote).result = .ok status ∧
      ((Receiver.applyValue value : Run Bool) carryOut s).2 =
        ((Host.setValue value .remote : Run (Except StoreError SetStatus)) carryOut s).2 := by
  have hplain : ((s.store.kind? value.id).map Kind.isStructural).getD false = false := by
    cases hget : s.store.get? value.id with
    | none => simp [Store.kind?, hget]
    | some held => simp [Store.kind?, hget, Value.kind, hblank held hget, Payload.kind,
        Kind.isStructural]
  have hsplit : (Receiver.applyValue value : Run Bool) carryOut s =
      (if s.filter.hides s.store value.id then pure false
      else if ((s.store.kind? value.id).map Kind.isStructural).getD false then pure true
      else do pure (Receiver.went (← Host.setValue value .remote)) : Run Bool) carryOut s := rfl
  rw [hsplit, hplain] at happlied ⊢
  split at happlied
  · cases happlied
  · have hwent : Receiver.went (s.store.setValue value .remote).result = true := happlied
    rw [if_neg ‹_›]
    cases hresult : (s.store.setValue value .remote).result with
    | ok status => exact ⟨status, rfl, rfl⟩
    | error e =>
      rw [hresult] at hwent
      cases hwent

theorem applied_of_blank (hcalls : ∀ callback s, Passage [] s (carryOut callback s))
    (hblank : s.store.Blank value.id)
    (happlied : ((Receiver.applyValue value : Run Bool) carryOut s).1 = true) :
    ∃ t, Applied value s t ((Receiver.applyValue value : Run Bool) carryOut s).2 := by
  obtain ⟨status, hresult, hrun⟩ := applyValue_of_blank hblank happlied
  obtain ⟨t, hreached, hstore, hheard⟩ :=
    leads_change hcalls (·.setValue value .remote) (.write ..)
  refine ⟨t, hreached, hrun ▸ hheard, hstore, ?_, Store.guarded_of_readOnly,
    Store.unguarded_of_readWrite⟩
  rw [hstore]
  exact Store.access?_setValue hresult

/-- Each element of a list has its turn. -/
theorem leads_forM {f : α → Run PUnit} (hcalls : ∀ callback s, Passage [] s (carryOut callback s))
    (hf : ∀ a, Orderly false (f a)) (before : List α) (x : α) (after : List α) :
    ∃ t, s.Leads t ∧
      (f x carryOut t).2.Leads (((before ++ x :: after).forM f : Run PUnit) carryOut s).2 := by
  induction before generalizing s with
  | nil =>
    have hafter : Orderly false (after.forM f) := orderly_forM hf
    exact ⟨s, ⟨_, .nil s⟩, .of_passage (hafter carryOut hcalls _ nofun)⟩
  | cons a before ih =>
    obtain ⟨t, hbefore, hafter⟩ := ih (s := (f a carryOut s).2)
    exact ⟨t, .trans (.of_passage (hf a carryOut hcalls s nofun)) hbefore, hafter⟩

/-- Each value of a message has its turn. -/
theorem leads_carryOut (hcalls : ∀ callback s, Passage [] s (carryOut callback s))
    {message : Message} {before after : List Value}
    (h : message.values = before ++ value :: after) :
    ∃ t, s.Leads t ∧ ((Receiver.applyValue value : Run Bool) carryOut t).2.Leads
      ((Client.carryOut message : Run Unit) carryOut s).2 := by
  have hbegun : s.Leads (s.record (.began message)) := ⟨_, .single (.begin message)⟩
  have hended (t : Session) : t.Leads (t.record (.ended message)) := ⟨_, .single (.finish message)⟩
  match message with
  | .valueChanged updates =>
    obtain ⟨front, rest, rfl, -, hrest⟩ := List.filterMap_eq_append_iff.mp h
    obtain ⟨more, update, back, rfl, -, hupdate, -⟩ := List.filterMap_eq_cons_iff.mp hrest
    have happly (update : Update) :
        Orderly false (do let _ ← (Receiver.applyUpdate update : Run Bool)) :=
      .bind (closed_orderly.applyUpdate orderly_filter update) fun _ => orderly_pure _
    obtain ⟨t, ht, hback⟩ :=
      leads_forM (s := s.record (.began _)) hcalls happly (front ++ more) update back
    cases update with
    | set _ =>
      cases hupdate
      rw [List.append_assoc] at hback
      exact ⟨t, hbegun.trans ht, hback.trans (hended _)⟩
    | _ => cases hupdate
  | .result n .success values =>
    obtain rfl : values = _ := h
    have happly (value : Value) :
        Orderly false (do let _ ← (Receiver.applyValue value : Run Bool)) :=
      .bind (closed_orderly.applyValue orderly_filter value) fun _ => orderly_pure _
    obtain ⟨t, ht, hback⟩ :=
      leads_forM (s := s.record (.began _)) hcalls happly before value after
    obtain ⟨-, hanswered⟩ := passage_applied hcalls n .success (before ++ value :: after) rfl
    exact ⟨t, hbegun.trans ht, (hback.trans (.of_passage hanswered)).trans (hended _)⟩
  | .result _ .notFound _ | .result _ (.other _) _ | .valueRemoved .. | .subscribe .. |
    .unsubscribe _ | .multiGet .. | .multiSet .. | .syncCompleted => simp [Message.values] at h

/-- What is asked for and not there comes into being as an open value that says nothing. -/
theorem leads_materialize (hcalls : ∀ callback s, Passage [] s (carryOut callback s))
    (before : List Id) {id : Id} (hroot : id.isRoot = false) (after : List Id) :
    ∃ t u, s.Leads t ∧ t.Leads u ∧
      u.Leads ((Client.materialize (before ++ id :: after) : Run Unit) carryOut s).2 ∧
        (t.store.has id = false → u.store.get? id = some ⟨id, .readWrite, .unset⟩) := by
  have hone (id : Id) : Orderly false (Client.materialize [id] : Run Unit) :=
    Client.orderly_materialize [id]
  obtain ⟨t, ht, hafter⟩ := leads_forM (s := s) hcalls hone before id after
  have hthis : (Client.materialize [id] : Run Unit) carryOut t =
      (if !id.isRoot && !t.store.has id then do
        let _ ← (Host.declare id .unset .readWrite : Run (Except StoreError SetStatus))
      else pure () : Run Unit) carryOut t := rfl
  rw [hthis, hroot] at hafter
  cases hhas : t.store.has id with
  | true =>
    rw [hhas] at hafter
    exact ⟨t, t, ht, ⟨_, .nil t⟩, hafter, fun hnot => nomatch hhas.symm.trans hnot⟩
  | false =>
    rw [hhas] at hafter
    obtain ⟨u, hu, hstore, hheard⟩ :=
      leads_change hcalls (·.declare id .unset .readWrite) (s := t) (.declare ..)
    refine ⟨t, u, ht, hu, hheard.trans hafter, fun _ => ?_⟩
    rw [hstore, Store.declare, Store.has_eq_false.mp hhas]
    have hadd : (t.store.add ⟨id, .readWrite, .unset⟩).get? id = some ⟨id, .readWrite, .unset⟩ := by
      rw [Store.get?, Store.node?_add, if_pos rfl, Option.map_some]
    exact hadd

end Run

/-! ## How long an access mode lasts -/

/-- The access mode stays until the id goes or its owner declares it. -/
theorem Trail.access? {moments : List Moment} {s t : Session} (h : Trail moments s t) {x : Id}
    {mode : Access} (hs : s.store.access? x = some mode) :
    t.store.access? x = some mode ∨ s.Resettles x t := by
  induction h with
  | nil _ => exact Or.inl hs
  | @cons moment rest s t u hfirst hrest ih =>
    have hthis : t.store.access? x = some mode ∨ s.store.Resettled x t.store := by
      rcases hfirst.store with hsame | ⟨declared, hstep⟩
      · exact Or.inl (hsame ▸ hs)
      · exact hstep.access? hs
    rcases hthis with hkept | hanew
    · refine (ih hkept).imp_right ?_
      rintro ⟨v, w, last, ⟨_, hv⟩, hlast, hw, hanew⟩
      exact ⟨v, w, last, ⟨_, .cons hfirst hv⟩, hlast, hw, hanew⟩
    · exact Or.inr ⟨s, t, moment, ⟨_, .nil s⟩, hfirst, ⟨_, hrest⟩, hanew⟩

/-! ## Every session -/

/-- What is true of the access modes in a session, whatever has been asked of it so far and however
deep callbacks nest. -/
structure AccessKept (s : Session) : Prop where
  /-- Whatever is asked of the session next, it is one moment after the other. -/
  trail (commands : List Command) : s.Leads (s.steps commands).2
  /-- Who asks for an id that is not there gets an open value that says nothing, before the request
  goes out. -/
  asked (fuel : Nat) (before : List Id) {id : Id} (after : List Id) : id.isRoot = false →
    ∃ t u, s.Leads t ∧ t.Leads u ∧
      u.Leads ((Client.materialize (before ++ id :: after) : Run Unit) (Run.carryOut fuel) s).2 ∧
        (t.store.has id = false → u.store.get? id = some ⟨id, .readWrite, .unset⟩)
  /-- Each value of a message of the authority has its turn while the message is carried out. -/
  brought (fuel : Nat) {message : Message} {before after : List Value} {value : Value} :
    message.values = before ++ value :: after →
      ∃ t, s.Leads t ∧
        ((Receiver.applyValue value : Run Bool) (Run.carryOut fuel) t).2.Leads
          ((Client.carryOut message : Run Unit) (Run.carryOut fuel) s).2
  /-- A value that goes through where nothing was said before is as open as what was there, or as
  the authority says if there was nothing. -/
  applied (fuel : Nat) {value : Value} : s.store.Blank value.id →
    ((Receiver.applyValue value : Run Bool) (Run.carryOut fuel) s).1 = true →
      ∃ t, Applied value s t ((Receiver.applyValue value : Run Bool) (Run.carryOut fuel) s).2
  /-- So it stays until the id goes or its owner declares it. -/
  lasts {t : Session} {x : Id} {mode : Access} : s.Leads t → s.store.access? x = some mode →
    t.store.access? x = some mode ∨ s.Resettles x t

/-- A value that comes in is protected as the authority says if the client does not hold its id, and
as the client holds it if it does. -/
theorem Session.accessKept (s : Session) : AccessKept s where
  trail commands := .of_passage (s.passage_steps commands)
  asked fuel before _ after hroot :=
    Run.leads_materialize (Run.passage_carryOut fuel) before hroot after
  brought fuel _ _ _ _ := Run.leads_carryOut (Run.passage_carryOut fuel)
  applied fuel _ := Run.applied_of_blank (Run.passage_carryOut fuel)
  lasts h := by
    obtain ⟨moments, htrail⟩ := h
    exact htrail.access?

/-- Who subscribes first may write what the authority says only its owner writes. -/
theorem Session.subscribed_open :
    let value : Value := ⟨⟨["a"]⟩, .readOnly, .bool true⟩
    let s := (((fresh {}).seatClient { app := "svc" }).steps
      [.request (.subscribe [⟨["a"]⟩]) "first" [] 0, .client .start, .wire .run]).2
    let t := (s.step (.wire (.inject ((Message.result 1 .success [value]).framed .marked)
      none true))).2
    s.store.get? ⟨["a"]⟩ = some ⟨⟨["a"]⟩, .readWrite, .unset⟩ ∧
      t.store.get? ⟨["a"]⟩ = some ⟨⟨["a"]⟩, .readWrite, .bool true⟩ ∧
        (t.step (.change (.set ⟨["a"]⟩ (.bool false) .local))).2.store.get? ⟨["a"]⟩ =
          some ⟨⟨["a"]⟩, .readWrite, .bool false⟩ := by
  decide +kernel

end ValueTree
