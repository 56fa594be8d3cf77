import ValueTree.Proofs.Loader.Returning

/-!
# Files that lead in a circle

A loader that overwrites from a file acts again before it is done if the file sends it to another
one. If that one sends it on, too, and so forth in a circle, then no room is enough: callbacks nest
until there is none left, wherever the limit is set.
-/

namespace ValueTree

/-! ## Circles -/

namespace Fragment

variable {id : Id} {access : Access} {path : String}

theorem alone_text : ({ values := [⟨id, access, .text path⟩] } : Fragment).alone =
    .ok (({} : Store).add ⟨id, access, .text path⟩) := by
  have hdeclared : ({} : Store).declare id (.text path) access =
      { result := .ok .success
        store := ({} : Store).add ⟨id, access, .text path⟩
        events := [.added ⟨id, access, .text path⟩ .local] } := by
    simp only [Store.declare, Store.node?_empty]
    rfl
  have hrun : ∃ q, Quiet.attempt {} ({ values := [⟨id, access, .text path⟩] } :
      Fragment).declareInto = (.ok (), q) ∧ q.store = ({} : Store).add ⟨id, access, .text path⟩ := by
    refine ⟨_, Quiet.attempt_bind_eq_ok.mpr ⟨(), {}, rfl, Quiet.attempt_bind_eq_ok.mpr
      ⟨(), _, Quiet.declare_eq_ok.mpr ⟨.success, ?_, rfl⟩, rfl⟩⟩, ?_⟩
    · exact congrArg Outcome.result hdeclared
    · exact congrArg Outcome.store hdeclared
  obtain ⟨q, hrun, hstore⟩ := hrun
  rw [alone_eq, hrun, ← hstore]
  rfl

theorem plainValues_single {v : Value} (hv : v.kind ≠ .container) :
    plainValues (({} : Store).add v) = [v] := by
  have hindex : (({} : Store).add v).index.toList = [v.id] := by
    have hlength : (({} : Store).add v).index.toList.length = 1 := by
      rw [Std.ExtTreeSet.length_toList]
      simp [Store.add, Std.ExtTreeSet.size_insert]
    obtain ⟨x, hx⟩ := List.length_eq_one_iff.mp hlength
    have hmem : v.id ∈ (({} : Store).add v).index.toList := by
      rw [Std.ExtTreeSet.mem_toList, Store.mem_index_add]
      exact Or.inl rfl
    rw [hx, List.mem_singleton] at hmem
    rw [hx, hmem]
  have hget : (({} : Store).add v).get? v.id = some v := by
    rw [Store.get?, Store.node?_add, if_pos rfl]
    rfl
  rw [plainValues, Store.values, hindex]
  simp [hget, hv]

theorem schemas_single (v : Value) : (({} : Store).add v).schemas = [] := by
  simp [Store.schemas, Store.add]

/-- A fragment with one text declares it and does no more. -/
theorem reload_text :
    (({ values := [⟨id, access, .text path⟩] } : Fragment).reload : ExceptT StoreError Run Unit) =
      (do let _ ← ExceptT.mk (Host.declare id (.text path) access) : ExceptT StoreError Run Unit) := by
  have hlift {own : Store} (f : Store → ExceptT StoreError Run Unit) :
      (liftM (Except.ok own : Except StoreError Store) >>= f) = f own := rfl
  unfold Fragment.reload
  rw [alone_text, hlift, schemas_single, plainValues_single (by simp [Value.kind, Payload.kind])]
  simp [List.forM_eq_forM]

end Fragment

namespace Loader

/-- All that is in each of these files is the order to go on to another one of them. -/
def Circle (l : Loader) (files : FileTree) (circle : List String) : Prop :=
  ∀ x ∈ circle, x ≠ "" ∧ ∃ y ∈ circle, y ≠ x ∧ ∃ access,
    Fragment.read files (l.resolve x) = .ok { values := [⟨l.fileId, access, .text y⟩] }

/-- A loader is told to overwrite from one of these files. -/
structure Armed (l : Loader) (circle : List String) (s : Store) : Prop where
  action : l.action s = .ok .overwrite
  file : l.file s ∈ circle

theorem armed_of {l : Loader} {circle : List String} {s t : Store} {y : String}
    (haction : l.action s = .ok .overwrite)
    (hsame : t.payload? l.actionId = s.payload? l.actionId)
    (hfile : t.payload? l.fileId = some (.text y)) (hy : y ∈ circle) : l.Armed circle t where
  action := (action_congr hsame).trans haction
  file := by rwa [file_def, hfile]

end Loader

namespace Duty

variable {α β ε : Type} {d : Duty} {carryOut : Callback → Session → Session} {P : Store → Prop}
  {circle : List String}

/-! ## No way back -/

/-- The loader is in its place later on, too, and there is no room again. -/
structure Later (d : Duty) (s t : Session) : Prop where
  sole : d.Sole t
  room : s.overrun = true → t.overrun = true

theorem Later.trans {s t u : Session} (h : d.Later s t) (h' : d.Later t u) : d.Later s u :=
  ⟨h'.sole, h'.room ∘ h.room⟩

theorem Sole.later {s : Session} (h : d.Sole s) : d.Later s s := ⟨h, id⟩

/-- This is so for all callbacks that come up while the loader is the only one who acts, and
observers without a reaction leave the store alone. -/
structure Steady (d : Duty) (carryOut : Callback → Session → Session) : Prop where
  react (name : String) (reaction : List Command) {s : Session} : d.Sole s →
    d.Later s (carryOut (.react name reaction 0) s) ∧
      (carryOut (.react name reaction 0) s).store = s.store
  trigger {s : Session} : d.Sole s → d.Later s (carryOut (.trigger d.serial) s)

def Stays (d : Duty) (carryOut : Callback → Session → Session) (x : Run α) : Prop :=
  ∀ s, d.Sole s → d.Later s (x carryOut s).2

theorem Stays.bind {x : Run α} {f : α → Run β} (hx : d.Stays carryOut x)
    (hf : ∀ a, d.Stays carryOut (f a)) : d.Stays carryOut (x >>= f) := by
  intro s hs
  have h := hx s hs
  exact h.trans (hf _ _ h.sole)

theorem stays_pure (a : α) : d.Stays carryOut (pure a : Run α) := fun _ hs => hs.later

theorem stays_get {f : Session → Run β} (h : ∀ s, d.Sole s → d.Stays carryOut (f s)) :
    d.Stays carryOut (get >>= f) :=
  fun s hs => h s hs s hs

theorem stays_forM {γ : Type} {xs : List γ} {f : γ → Run PUnit}
    (h : ∀ c ∈ xs, d.Stays carryOut (f c)) : d.Stays carryOut (xs.forM f) := by
  induction xs with
  | nil => exact stays_pure _
  | cons c rest ih =>
    exact (h c List.mem_cons_self).bind fun _ => ih fun c hc => h c (List.mem_cons_of_mem _ hc)

theorem stays_tend (f : Tenure → Tenure) (hf : ∀ holders, (f ⟨holders, false⟩).released = false) :
    d.Stays carryOut (modify (·.tendLoader d.serial f) : Run Unit) :=
  fun _ hs => ⟨hs.tendLoader hf, id⟩

theorem stays_held {x : Run α} (hx : d.Stays carryOut x) :
    d.Stays carryOut (Run.holdingLoader d.serial x) :=
  (stays_tend Tenure.hold fun _ => rfl).bind fun _ => hx.bind fun _ =>
    (stays_tend Tenure.letGo fun _ => rfl).bind fun _ => stays_pure _

section

variable (h : d.Steady carryOut)

include h

theorem later_silent {listener : Listener} (hl : listener.Silent) (event : Event) {s : Session}
    (hs : d.Sole s) : d.Later s (Run.hear event listener carryOut s).2 ∧
      (Run.hear event listener carryOut s).2.store = s.store := by
  have hmarked : d.Sole (s.mark (.handed listener.hearer event)) := hs.mark _
  cases listener with
  | observer o =>
    have hlimit : o.limit = 0 := hl
    change d.Later s (Run.observed o event carryOut _).2 ∧
      (Run.observed o event carryOut _).2.store = s.store
    unfold Run.observed
    split
    · rw [hlimit]
      obtain ⟨hlater, hstore⟩ := h.react o.name o.reaction (hmarked.write _)
      exact ⟨⟨hlater.sole, hlater.room⟩, hstore⟩
    · exact ⟨⟨hmarked, id⟩, rfl⟩
  | client => exact hl.elim
  | loader serial => exact hl.elim

theorem stays_loader (event : Event) : d.Stays carryOut (Run.hear event (.loader d.serial)) := by
  refine Stays.bind (fun _ hs => ⟨hs.mark _, id⟩) fun _ => stays_get fun s hs => ?_
  simp only [hs.loader?]
  split
  · exact fun s hs => h.trigger hs
  · exact stays_pure _

theorem stays_deliver (event : Event) : d.Stays carryOut (Run.deliver event) := by
  refine stays_get fun s hs => ?_
  obtain ⟨before, after, hsnapshot, hbefore, hafter⟩ := hs.listeners
  rw [hsnapshot]
  refine stays_forM fun listener hmem => ?_
  rcases List.mem_append.mp hmem with hmem | hmem
  · exact fun s hs => (later_silent h (hbefore _ hmem) event hs).1
  · rcases List.mem_cons.mp hmem with rfl | hmem
    · exact stays_loader h event
    · exact fun s hs => (later_silent h (hafter _ hmem) event hs).1

theorem closed_stays : Closed fun {_} x => d.Stays carryOut x where
  pure := stays_pure
  bind := .bind
  store := stays_get fun _ _ => stays_pure _
  change ht := stays_get fun s hs => Stays.bind
    (fun _ h => ⟨h.of_same rfl rfl rfl (hs.indexed.turn (ht s.store)), id⟩) fun _ =>
      (stays_forM fun event _ => stays_deliver h event).bind fun _ => stays_pure _

end

theorem steady_carryOut (d : Duty) (n : Nat) : d.Steady (Run.carryOut n) := by
  induction n with
  | zero =>
    -- Nothing is carried out without room, but for the trace that it leaves.
    have hover {s : Session} (hs : d.Sole s) : d.Later s { s with overrun := true } :=
      ⟨hs.of_same rfl rfl rfl hs.indexed, fun _ => rfl⟩
    exact ⟨fun _ _ _ hs => ⟨hover hs, rfl⟩, fun hs => hover hs⟩
  | succ n ih =>
    constructor
    case react =>
      intro name reaction s hs
      have hsame : Run.carryOut (n + 1) (.react name reaction 0) s = s := by
        simp only [Run.carryOut, Run.perform, Run.react, Nat.not_lt_zero, if_false]
        rfl
      exact hsame.symm ▸ ⟨hs.later, rfl⟩
    case trigger =>
      intro s hs
      have hperform : d.Stays (Run.carryOut n) (Run.perform (.trigger d.serial)) := by
        refine stays_get fun s hs => ?_
        simp only [hs.loader?]
        exact stays_held (stays_get fun s _ =>
          ((closed_stays ih).trigger d.loader s.files).bind fun _ => stays_pure _)
      exact hperform s hs

/-! ## No end -/

/-- There is no room for the computation. -/
def Dooms (d : Duty) (carryOut : Callback → Session → Session) (P : Store → Prop) (x : Run α) :
    Prop :=
  ∀ s, d.Sole s → P s.store → (x carryOut s).2.overrun = true

theorem Dooms.bind {x : Run α} {f : α → Run β} (h : d.Dooms carryOut P x)
    (hx : d.Stays carryOut x) (hf : ∀ a, d.Stays carryOut (f a)) :
    d.Dooms carryOut P (x >>= f) :=
  fun s hs hp => (hf _ _ (hx s hs).sole).room (h s hs hp)

theorem Dooms.bind_except {x : ExceptT ε Run α} {f : α → ExceptT ε Run β}
    (h : d.Dooms carryOut P x.run) (hx : d.Stays carryOut x.run)
    (hf : ∀ a, d.Stays carryOut (f a).run) : d.Dooms carryOut P (x >>= f).run := by
  rw [ExceptT.run_bind]
  refine h.bind hx fun result => ?_
  cases result with
  | ok a => exact hf a
  | error e => exact stays_pure _

theorem dooms_store {f : Store → Run β} (h : ∀ s, P s → d.Dooms carryOut (· = s) (f s)) :
    d.Dooms carryOut P ((Host.store : Run Store) >>= f) :=
  fun s hs hp => h s.store hp s hs rfl

section

variable (h : d.Steady carryOut)

include h

theorem later_silents {listeners : List Listener} (hl : ∀ l ∈ listeners, l.Silent) (event : Event)
    {s : Session} (hs : d.Sole s) : d.Later s (listeners.forM (Run.hear event) carryOut s).2 ∧
      (listeners.forM (Run.hear event) carryOut s).2.store = s.store := by
  induction listeners generalizing s with
  | nil => exact ⟨hs.later, rfl⟩
  | cons l rest ih =>
    obtain ⟨hlater, hstore⟩ := later_silent h (hl l List.mem_cons_self) event hs
    obtain ⟨hrest, hstore'⟩ := ih (fun l hmem => hl l (List.mem_cons_of_mem _ hmem)) hlater.sole
    exact ⟨hlater.trans hrest, hstore'.trans hstore⟩

variable (hcall : ∀ s, d.Sole s → d.loader.Armed circle s.store →
  (carryOut (.trigger d.serial) s).overrun = true)

include hcall

theorem dooms_deliver {event : Event} (horder : d.loader.isOrder event = true) :
    d.Dooms carryOut (d.loader.Armed circle) (Run.deliver event) := by
  have hloader : d.Dooms carryOut (d.loader.Armed circle)
      (Run.hear event (.loader d.serial)) := by
    intro s hs harmed
    change (Run.ordered d.serial event carryOut (s.mark _)).2.overrun = true
    unfold Run.ordered
    rw [get_bind, (hs.mark _).loader?]
    simp only [horder, if_true]
    exact hcall _ (hs.mark _) harmed
  intro s hs harmed
  obtain ⟨before, after, hsnapshot, hbefore, hafter⟩ := hs.listeners
  obtain ⟨hlater, hstore⟩ := later_silents h hbefore event hs
  have hrest : d.Dooms carryOut (d.loader.Armed circle)
      ((.loader d.serial :: after).forM (Run.hear event)) :=
    hloader.bind (stays_loader h event) fun _ => stays_forM fun l hl s hs =>
      (later_silent h (hafter l hl) event hs).1
  unfold Run.deliver
  rw [get_bind, hsnapshot, List.forM_eq_forM, List.forM_append]
  exact hrest _ hlater.sole (hstore.symm ▸ harmed)

theorem dooms_change {step : Store → Outcome α}
    (ht : ∀ s : Store, s.Turn (step s).store (step s).events)
    (hstep : ∀ s : Store, s.Indexed → P s → ∃ event, (step s).events = [event] ∧
      d.loader.isOrder event = true ∧ d.loader.Armed circle (step s).store) :
    d.Dooms carryOut P (Host.change step : Run (Except StoreError α)) := by
  intro s hs hp
  obtain ⟨event, hevents, horder, harmed⟩ := hstep s.store hs.indexed hp
  have htold : d.Dooms carryOut (d.loader.Armed circle)
      ((step s.store).events.forM Run.deliver) := by
    rw [hevents]
    exact (dooms_deliver h hcall horder).bind (stays_deliver h event) fun _ => stays_pure _
  exact htold _ (hs.made (ht s.store)) harmed

theorem dooms_declare {x y : String} (hx : x ≠ "") (hy : y ∈ circle) (hne : y ≠ x)
    (access : Access) {bound : Nat} : d.Dooms carryOut (d.loader.Ordered bound .overwrite x)
      (Host.declare d.loader.fileId (.text y) access : Run (Except StoreError SetStatus)) := by
  refine dooms_change h hcall (fun s => .declare ..) fun s hs hordered => ?_
  have hfile := hordered.payload_file hx
  have hassign := Payload.assign_text_of_ne hne
  rcases hs.declare_cases with ⟨-, hsame⟩ | ⟨value, hvalue⟩
  · have hfound : s.found d.loader.fileId = .text x := by rw [Store.found, hfile, Option.getD_some]
    obtain ⟨status, hok⟩ : ∃ status,
        (s.declare d.loader.fileId (.text y) access).result = .ok status :=
      (Store.declare_isOk access).mpr ⟨_, _, hfound.symm ▸ hassign⟩
    cases hassign.symm.trans (hsame _ status hfile hok)
  · have hpayload := fun id => Loader.payload?_announced (x := id) hs hvalue
    have hy' : value.payload = .text y :=
      (congrArg Prod.snd (Except.ok.inj (hassign.symm.trans (hvalue.taken hfile)))).symm
    have harmed : d.loader.Armed circle (s.declare d.loader.fileId (.text y) access).store :=
      Loader.armed_of hordered.action ((hpayload _).trans (if_neg d.loader.actionId_ne_fileId.symm))
        ((hpayload _).trans (by rw [if_pos rfl, hy'])) hy
    have horder (event : Event)
        (hevent : event = .added value .local ∨ event = .changed value .local) :
        d.loader.isOrder event = true :=
      Loader.isOrder_iff.mpr ⟨value, .local, hevent, Or.inr hvalue.about⟩
    exact hvalue.told.elim (fun hevents => ⟨_, hevents, horder _ (Or.inl rfl), harmed⟩)
      fun hevents => ⟨_, hevents, horder _ (Or.inr rfl), harmed⟩

theorem dooms_set {id : Id} (hid : id = d.loader.actionId ∨ id = d.loader.fileId)
    (payload : Payload) (origin : Origin) :
    d.Dooms carryOut (fun s => (s.set id payload origin).result = .ok .success ∧
        d.loader.Armed circle (s.set id payload origin).store)
      (Host.set id payload origin : Run (Except StoreError SetStatus)) := by
  refine dooms_change h hcall (fun s => .write ..) ?_
  rintro s hs ⟨hok, harmed⟩
  obtain ⟨value, event, hevents, hevent, hvalue⟩ := hs.events_write hok
  exact ⟨event, hevents, Loader.isOrder_iff.mpr ⟨value, origin, hevent, hvalue ▸ hid⟩, harmed⟩

variable (hcircle : d.loader.Circle d.files circle)

include hcircle

theorem dooms_run {x : String} (hx : x ∈ circle) {bound : Nat} :
    d.Dooms carryOut (d.loader.Ordered bound .overwrite x)
      (d.loader.run d.files .overwrite x : Run (Except SchemaError Unit)) := by
  obtain ⟨hnamed, y, hy, hne, access, hfragment⟩ := hcircle x hx
  have hdeclare := (closed_stays h).declare d.loader.fileId (.text y) access
  have hreload : d.Dooms carryOut (d.loader.Ordered bound .overwrite x)
      (do let _ ← ExceptT.mk (Host.declare d.loader.fileId (.text y) access) :
        ExceptT StoreError Run Unit).run :=
    (dooms_declare h hcall hnamed hy hne access).bind_except hdeclare fun _ => stays_pure _
  unfold Loader.run
  rw [hfragment]
  simp only [Loader.applyAction, Fragment.reload_text]
  refine hreload.bind ((closed_stays h).bind_except hdeclare fun _ => stays_pure _) fun result => ?_
  split <;> exact stays_pure _

theorem dooms_trigger : d.Dooms carryOut (d.loader.Armed circle)
    (d.loader.trigger d.files : Run LoadStatus) := by
  refine dooms_store fun s harmed => ?_
  have hnamed := (hcircle _ harmed.file).1
  have hordered : d.loader.Ordered (d.loader.anchors s) .overwrite (d.loader.file s) s :=
    ⟨le_rfl, harmed.action, rfl⟩
  simp only [hnamed, if_false, harmed.action]
  refine Dooms.bind (fun t ht hs => ?_) ((closed_stays h).run d.loader d.files _ _) fun result => ?_
  · exact dooms_run h hcall hcircle harmed.file t ht (by rwa [hs])
  · exact ((closed_stays h).declare _ _ _).bind fun _ => stays_pure _

end

theorem dooms_held {x : Run α} (h : d.Dooms carryOut P x) :
    d.Dooms carryOut P (Run.holdingLoader d.serial x) :=
  fun s hs hp => h (s.tendLoader d.serial Tenure.hold) (hs.tendLoader fun _ => rfl) hp

section

variable (hcircle : d.loader.Circle d.files circle)

include hcircle

theorem call_overruns (n : Nat) {s : Session} (hs : d.Sole s) (harmed : d.loader.Armed circle s.store) :
    (Run.carryOut n (.trigger d.serial) s).overrun = true := by
  -- Each call takes some of the room and comes to another one, of the next file in the circle.
  induction n generalizing s with
  | zero => rfl
  | succ n ih =>
    have h := steady_carryOut d n
    have htrigger := dooms_trigger h (fun _ => ih) hcircle
    have hheld : d.Dooms (Run.carryOut n) (d.loader.Armed circle)
        (Run.holdingLoader d.serial do
          let _ ← (d.loader.trigger (← get).files : Run LoadStatus)) := by
      refine dooms_held fun s hs harmed => ?_
      have hrun := htrigger.bind ((closed_stays h).trigger d.loader d.files) fun _ => stays_pure ()
      rw [get_bind, hs.files]
      exact hrun s hs harmed
    change ((Run.perform (.trigger d.serial)) (Run.carryOut n) s).2.overrun = true
    simp only [Run.perform]
    rw [get_bind, hs.loader?]
    exact hheld s hs harmed

theorem trigger_overruns {s : Session} (hs : d.Sole s) (harmed : d.loader.Armed circle s.store) :
    (Run.act (.loader .trigger)).Overruns s := by
  intro n
  have h := steady_carryOut d n
  have hheld : d.Dooms (Run.carryOut n) (d.loader.Armed circle)
      (Run.holdingLoader d.serial do
        pure (Reply.loadStatus (← (d.loader.trigger (← get).files : Run LoadStatus)))) := by
    refine dooms_held fun s hs harmed => ?_
    have hrun := (dooms_trigger h (fun _ => call_overruns hcircle n) hcircle).bind
      ((closed_stays h).trigger d.loader d.files) fun status => stays_pure (Reply.loadStatus status)
    rw [get_bind, hs.files]
    exact hrun s hs harmed
  obtain ⟨seat, hseat, hserial, hloader⟩ := hs.attached?
  change (Run.loader .trigger (Run.carryOut n) s).2.overrun = true
  simp only [Run.loader, Run.withLoader]
  rw [get_bind, hseat]
  simp only [hserial, hloader]
  exact hheld s hs harmed

theorem prompted_overruns {s : Session} {command : Command} {found : Store} (hs : d.Sole s)
    (h : d.loader.Prompted s.store command found) (harmed : d.loader.Armed circle found) :
    (Run.act command).Overruns s := by
  cases h with
  | call => exact trigger_overruns hcircle hs harmed
  | @write id payload origin hid hok =>
    intro n
    have hset := dooms_set (steady_carryOut d n) (fun _ => call_overruns hcircle n) hid payload origin
    exact hset s hs ⟨hok, harmed⟩

end

end Duty

/-! ## Files that name each other -/

namespace FileTree

/-- Each of these files holds the order to go on to the next one. -/
def chained (links : List (String × String)) : FileTree where
  entries := links.map fun (name, next) => ([name], .file
    ("\x7b\"values\":[\x7b\"id\":\"loader.file\",\"data\":\x7b\"text\":\"" ++ next ++
      "\"\x7d\x7d]\x7d").toUTF8.toList)

end FileTree

namespace Session

/-- A session with a loader that was told to overwrite, but not from which file. -/
def overwriting (files : FileTree) : Session :=
  { (fresh files).seatLoader {} with
    store := (Quiet.after {} [
      .declare ⟨["loader", "action"]⟩ LoaderAction.overwrite.payload .readWrite,
      .declare ⟨["loader", "file"]⟩ (.text "") .readWrite]).store }

theorem ready_overwriting (files : FileTree) : Duty.Ready ⟨0, {}, files⟩ (overwriting files) where
  listeners := ⟨[.observer { name := Observer.main }], [], rfl,
    List.forall_mem_singleton.mpr rfl, List.forall_mem_nil _⟩
  seat := ⟨_, _, rfl⟩
  files := rfl
  indexed := (Quiet.accounted_after _).indexed
  room := rfl

end Session

namespace Duty

/-! ## Which orders come to an end -/

/-- If no file leads back to itself, then whatever works on the store of a loader comes to an end. A
call of the loader, or a write to one of its orders, comes to an end wherever the files lead if the
loader is not told to overwrite then. If it is told to overwrite from a file that lies on a circle,
then no room is enough. -/
theorem orders_end {d : Duty} {s : Session} (hs : d.Ready s) :
    ((∀ x, ¬Relation.TransGen (d.loader.Leads d.files) x x) →
      ∀ command : Command, command.onStore = true → (Run.act command).Ends s fun _ => d.Ready) ∧
    ∀ command found, d.loader.Prompted s.store command found →
      (d.loader.action found ≠ .ok .overwrite → (Run.act command).Ends s fun _ => d.Ready) ∧
      ∀ circle, d.loader.Circle d.files circle → d.loader.Armed circle found →
        (Run.act command).Overruns s := by
  constructor
  · intro hacyclic command hcommand
    have hends := act_ends (Loader.wellFounded_leads hacyclic) hcommand
    exact (hends s hs trivial).mono fun _ _ ht => ht.1
  · intro command found hprompted
    exact ⟨prompted_ends hs hprompted, fun circle hcircle =>
      prompted_overruns hcircle hs.toSole hprompted⟩

/-- A file that names itself is no circle: what the loader is told then, it was told before. -/
theorem orders_end_instances :
    let sent : Command := .change (.set ⟨["loader", "file"]⟩ (.text "a.json") .local)
    let onward : FileTree := .chained [("a.json", "b.json"), ("b.json", "b.json")]
    let around : FileTree := .chained [("a.json", "b.json"), ("b.json", "a.json")]
    ((Run.act sent).Ends (.overwriting onward) fun _ => Ready ⟨0, {}, onward⟩) ∧
      (Run.act sent).Overruns (.overwriting around) := by
  intro sent onward around
  have htargets : Loader.targets {} onward = ["b.json", "b.json"] := by decide +kernel
  have hacyclic (x : String) : ¬Relation.TransGen (Loader.Leads {} onward) x x := by
    intro hcycle
    have hto {y z : String} (h : Loader.Leads {} onward y z) : z = "b.json" := by
      simpa [htargets] using h.mem_targets
    obtain ⟨y, hfirst, -⟩ := Relation.TransGen.head'_iff.mp hcycle
    obtain ⟨z, -, hlast⟩ := Relation.TransGen.tail'_iff.mp hcycle
    exact hfirst.other ((hto hfirst).trans (hto hlast).symm)
  have hcircle : Loader.Circle {} around ["a.json", "b.json"] := by
    have hread : Fragment.read around (Loader.resolve {} "a.json") = .ok
        { values := [⟨⟨["loader", "file"]⟩, .readWrite, .text "b.json"⟩] } := by decide +kernel
    have hread' : Fragment.read around (Loader.resolve {} "b.json") = .ok
        { values := [⟨⟨["loader", "file"]⟩, .readWrite, .text "a.json"⟩] } := by decide +kernel
    refine List.forall_mem_cons.mpr ⟨⟨by decide, "b.json", by simp, by decide, _, hread⟩, ?_⟩
    exact List.forall_mem_singleton.mpr ⟨by decide, "a.json", by simp, by decide, _, hread'⟩
  have harmed : Loader.Armed {} ["a.json", "b.json"]
      ((Session.overwriting around).store.set ⟨["loader", "file"]⟩ (.text "a.json") .local).store :=
    ⟨by decide +kernel, by decide +kernel⟩
  constructor
  · exact (orders_end (Session.ready_overwriting onward)).1 hacyclic sent rfl
  · exact ((orders_end (Session.ready_overwriting around)).2 sent _
      (.write (Or.inr rfl) (by decide +kernel))).2 _ hcircle harmed

end Duty

end ValueTree
