import ValueTree.Fragment
import ValueTree.Proofs.Store.WellFormed

/-!
# Computations on a store that nobody watches

A computation stops at the first change that is refused. What it leaves is what its changes leave,
one after the other, so whatever changes keep is kept by fragments as well.
-/

namespace ValueTree

namespace Quiet

/-- What a computation answers, and what it leaves. -/
def attempt {α : Type} (q : Quiet) (x : ExceptT StoreError (StateM Quiet) α) :
    Except StoreError α × Quiet :=
  x.run.run q

section

variable {α β : Type} {q q' : Quiet} {x : ExceptT StoreError (StateM Quiet) α}
  {f : α → ExceptT StoreError (StateM Quiet) β}

theorem attempt_eq_ok {a : α} (h : (q.attempt x).1.toOption = some a) :
    ∃ p, q.attempt x = (.ok a, p) := by
  cases hx : q.attempt x with
  | mk result p =>
    rw [hx] at h
    cases result with
    | ok b => exact ⟨p, by rw [Option.some.inj h]⟩
    | error e => cases h

/-! ## Steps in a row -/

theorem attempt_bind_ok {a : α} (h : q.attempt x = (.ok a, q')) :
    q.attempt (x >>= f) = q'.attempt (f a) := by
  simp only [attempt, ExceptT.run_bind, StateT.run_bind] at h ⊢
  rw [h]
  rfl

theorem attempt_bind_error {e : StoreError} (h : q.attempt x = (.error e, q')) :
    q.attempt (x >>= f) = (.error e, q') := by
  simp only [attempt, ExceptT.run_bind, StateT.run_bind] at h ⊢
  rw [h]
  rfl

theorem attempt_bind_eq_ok {b : β} : q.attempt (x >>= f) = (.ok b, q') ↔
    ∃ a p, q.attempt x = (.ok a, p) ∧ p.attempt (f a) = (.ok b, q') := by
  cases hx : q.attempt x with
  | mk result p =>
    cases result with
    | ok a =>
      rw [attempt_bind_ok hx]
      refine ⟨fun h => ⟨a, p, rfl, h⟩, ?_⟩
      rintro ⟨a', p', he, h⟩
      cases he
      exact h
    | error e => simp [attempt_bind_error hx]

theorem bind_keeps {P : Quiet → Prop} (hx : P (q.attempt x).2)
    (hf : ∀ a p, q.attempt x = (.ok a, p) → P p → P (p.attempt (f a)).2) :
    P (q.attempt (x >>= f)).2 := by
  cases h : q.attempt x with
  | mk result p =>
    rw [h] at hx
    cases result with
    | ok a =>
      rw [attempt_bind_ok h]
      exact hf a p h hx
    | error e =>
      rw [attempt_bind_error h]
      exact hx

/-- A step whose answer nobody reads. -/
theorem attempt_discard :
    q.attempt (x >>= fun _ => pure ()) = ((q.attempt x).1.map fun _ => (), (q.attempt x).2) := by
  cases h : q.attempt x with
  | mk result p =>
    cases result with
    | ok a => exact attempt_bind_ok h
    | error e => exact attempt_bind_error h

theorem discard_eq_ok :
    q.attempt (x >>= fun _ => pure ()) = (.ok (), q') ↔ ∃ a, q.attempt x = (.ok a, q') := by
  rw [attempt_bind_eq_ok]
  constructor
  · rintro ⟨a, p, hx, hpure⟩
    obtain rfl := (Prod.mk.inj hpure).2
    exact ⟨a, hx⟩
  · rintro ⟨a, hx⟩
    exact ⟨a, q', hx, rfl⟩

theorem attempt_lift {result given : Except StoreError α} (h : given = result) :
    q.attempt (liftM given) = (result, q) :=
  congrArg (·, q) h

theorem attempt_store : q.attempt (liftM (Host.store : StateM Quiet Store)) = (.ok q.store, q) :=
  rfl

theorem attempt_dropSchema (id : Id) :
    q.attempt (liftM (Host.adjust (·.dropSchema id) : StateM Quiet Unit)) =
      (.ok (), ⟨q.store.dropSchema id, q.events⟩) :=
  congrArg (fun events => (Except.ok (), Quiet.mk _ events)) (List.append_nil q.events)

theorem attempt_declareContainer (schema : Schema) :
    q.attempt (ExceptT.mk (Host.declareContainer schema)) =
      match schema.fault? with
      | some fault => (.error (.invalidId fault), q)
      | none =>
        let declared := q.store.declare schema.id (.container schema.order) .readWrite
        let events := q.events ++ declared.events
        match declared.result with
        | .error e => (.error e, ⟨declared.store, events⟩)
        | .ok _ => (.ok (), ⟨declared.store.putSchema schema, events⟩) :=
  run_declareContainer schema

theorem declareContainer_eq_ok {schema : Schema}
    (h : q.attempt (ExceptT.mk (Host.declareContainer schema)) = (.ok (), q')) :
    schema.fault? = none ∧ ∃ status,
      (q.store.declare schema.id (.container schema.order) .readWrite).result = .ok status ∧
        q'.store =
          (q.store.declare schema.id (.container schema.order) .readWrite).store.putSchema schema := by
  rw [attempt_declareContainer] at h
  split at h
  · cases h
  · rename_i hfault
    dsimp only at h
    split at h
    · cases h
    · rename_i status hresult
      obtain rfl := (Prod.mk.inj h).2
      exact ⟨hfault, status, hresult, rfl⟩

theorem declare_eq_ok {id : Id} {payload : Payload} {access : Access} :
    q.attempt (do let _ ← ExceptT.mk (Host.declare id payload access)) = (.ok (), q') ↔
      ∃ status, (q.store.declare id payload access).result = .ok status ∧
        Quiet.mk (q.store.declare id payload access).store
          (q.events ++ (q.store.declare id payload access).events) = q' :=
  discard_eq_ok.trans (exists_congr fun _ => iff_of_eq (Prod.mk.injEq ..))

theorem removeKey_eq_ok {id : Id} {key : String} {origin : Origin} :
    q.attempt (do let _ ← ExceptT.mk (Host.removeKey id key origin)) = (.ok (), q') ↔
      ∃ answer, (q.store.removeKey id key origin).result = .ok answer ∧
        Quiet.mk (q.store.removeKey id key origin).store
          (q.events ++ (q.store.removeKey id key origin).events) = q' :=
  discard_eq_ok.trans (exists_congr fun _ => iff_of_eq (Prod.mk.injEq ..))

/-! ## Loops -/

variable {step : α → ExceptT StoreError (StateM Quiet) PUnit} {xs : List α}

/-- What holds at first and is kept by each step holds at the end, even if a step is refused. -/
theorem forM_keeps {P : Quiet → Prop} (hstep : ∀ a ∈ xs, ∀ q, P q → P (q.attempt (step a)).2)
    (h : P q) : P (q.attempt (xs.forM step)).2 := by
  induction xs generalizing q with
  | nil => exact h
  | cons a rest ih =>
    refine bind_keeps (hstep a List.mem_cons_self q h) fun _ p _ hp => ?_
    exact ih (fun b hb => hstep b (List.mem_cons_of_mem _ hb)) hp

/-- A row stops at one of its items, with those before it done. -/
def Stops (xs : List α) (step : α → ExceptT StoreError (StateM Quiet) PUnit)
    (P : List α → Quiet → Prop) (e : StoreError) (q' : Quiet) : Prop :=
  ∃ done a rest p, xs = done ++ a :: rest ∧ P done p ∧ p.attempt (step a) = (.error e, q')

/-- An invariant speaks of the items that are done, up to the end or to the one that is refused. -/
theorem forM_cases {P : List α → Quiet → Prop} {result : Except StoreError PUnit}
    (hstep : ∀ done a rest, xs = done ++ a :: rest → ∀ p p', P done p →
      p.attempt (step a) = (.ok (), p') → P (done ++ [a]) p')
    (h : P [] q) (hrun : q.attempt (xs.forM step) = (result, q')) :
    result = .ok () ∧ P xs q' ∨ ∃ e, result = .error e ∧ Stops xs step P e q' := by
  -- By induction on what is left to do, while the items that are done grow at their end.
  have hfrom (done rest : List α) (hxs : xs = done ++ rest) (p : Quiet) (hp : P done p)
      (hrun : p.attempt (rest.forM step) = (result, q')) :
      result = .ok () ∧ P xs q' ∨ ∃ e, result = .error e ∧ Stops xs step P e q' := by
    induction rest generalizing done p with
    | nil =>
      obtain ⟨rfl, rfl⟩ := Prod.mk.inj hrun
      exact Or.inl ⟨rfl, by rwa [hxs, List.append_nil]⟩
    | cons a rest ih =>
      cases ha : p.attempt (step a) with
      | mk answer p' =>
        cases answer with
        | ok u =>
          refine ih (done ++ [a]) (by simp [hxs]) p' (hstep done a rest hxs p p' hp ha) ?_
          exact (attempt_bind_ok ha).symm.trans hrun
        | error e =>
          obtain ⟨rfl, rfl⟩ := Prod.mk.inj ((attempt_bind_error ha).symm.trans hrun)
          exact Or.inr ⟨e, rfl, done, a, rest, p, hxs, hp, ha⟩
  exact hfrom [] xs rfl q h hrun

theorem forM_done {P : List α → Quiet → Prop}
    (hstep : ∀ done a rest, xs = done ++ a :: rest → ∀ p p', P done p →
      p.attempt (step a) = (.ok (), p') → P (done ++ [a]) p')
    (h : P [] q) (hrun : q.attempt (xs.forM step) = (.ok (), q')) : P xs q' := by
  obtain ⟨-, hdone⟩ | ⟨e, hrefused, -⟩ := forM_cases hstep h hrun
  · exact hdone
  · cases hrefused

/-- Each item comes to what it is for, and the later ones leave it at that. -/
theorem forM_each {I : Quiet → Prop} {P : α → Quiet → Prop} {R : α → α → Prop}
    (horder : xs.Pairwise R)
    (hstep : ∀ a ∈ xs, ∀ p p', I p → p.attempt (step a) = (.ok (), p') →
      I p' ∧ P a p' ∧ ∀ b, R b a → P b p → P b p')
    (h : I q) (hrun : q.attempt (xs.forM step) = (.ok (), q')) : I q' ∧ ∀ a ∈ xs, P a q' := by
  refine forM_done (P := fun done p => I p ∧ ∀ a ∈ done, P a p) ?_ ⟨h, nofun⟩ hrun
  rintro done a rest hsplit p p' ⟨hp, hdone⟩ hrun
  obtain ⟨hp', hnew, hold⟩ := hstep a (by simp [hsplit]) p p' hp hrun
  refine ⟨hp', fun b hb => ?_⟩
  rcases List.mem_append.mp hb with hb | hb
  · have hba := (List.pairwise_append.mp (hsplit ▸ horder)).2.2 b hb a List.mem_cons_self
    exact hold b hba (hdone b hb)
  · exact List.mem_singleton.mp hb ▸ hnew

/-- Nothing is refused if the invariant sees to it. -/
theorem forM_isOk {P : Quiet → Prop} (xs : List α)
    (step : α → ExceptT StoreError (StateM Quiet) PUnit)
    (hstep : ∀ a ∈ xs, ∀ p, P p → ∃ p', p.attempt (step a) = (.ok (), p') ∧ P p') (h : P q) :
    ∃ q', q.attempt (xs.forM step) = (.ok (), q') ∧ P q' := by
  induction xs generalizing q with
  | nil => exact ⟨q, rfl, h⟩
  | cons a rest ih =>
    obtain ⟨p, ha, hp⟩ := hstep a List.mem_cons_self q h
    obtain ⟨q', hrest, hq'⟩ := ih (fun b hb => hstep b (List.mem_cons_of_mem _ hb)) hp
    exact ⟨q', (attempt_bind_ok ha).trans hrest, hq'⟩

/-! ## Changes in a row -/

theorem after_append (changes more : List Change) :
    q.after (changes ++ more) = (q.after changes).after more :=
  List.foldl_append

/-- The computation leaves what changes leave. -/
def MadeOfChanges (x : ExceptT StoreError (StateM Quiet) α) : Prop :=
  ∀ q : Quiet, ∃ changes, (q.attempt x).2 = q.after changes

namespace MadeOfChanges

theorem pure (a : α) : MadeOfChanges (pure a) := fun _ => ⟨[], rfl⟩

theorem throw (e : StoreError) :
    MadeOfChanges (throw e : ExceptT StoreError (StateM Quiet) α) := fun _ => ⟨[], rfl⟩

theorem lift (result : Except StoreError α) : MadeOfChanges (liftM result) := fun _ => ⟨[], rfl⟩

theorem store : MadeOfChanges (liftM (Host.store : StateM Quiet Store)) := fun _ => ⟨[], rfl⟩

theorem bind (hx : MadeOfChanges x) (hf : ∀ a, MadeOfChanges (f a)) : MadeOfChanges (x >>= f) := by
  intro q
  obtain ⟨changes, hchanges⟩ := hx q
  cases h : q.attempt x with
  | mk result p =>
    rw [h] at hchanges
    dsimp only at hchanges
    subst hchanges
    cases result with
    | ok a =>
      obtain ⟨more, hmore⟩ := hf a (q.after changes)
      exact ⟨changes ++ more, by rw [attempt_bind_ok h, hmore, after_append]⟩
    | error e => exact ⟨changes, by rw [attempt_bind_error h]⟩

theorem forM (hstep : ∀ a, MadeOfChanges (step a)) : MadeOfChanges (xs.forM step) := by
  induction xs with
  | nil => exact pure _
  | cons a rest ih => exact (hstep a).bind fun _ => ih

theorem declare (id : Id) (payload : Payload) (access : Access) :
    MadeOfChanges (ExceptT.mk (Host.declare id payload access)) :=
  fun _ => ⟨[.declare id payload access], rfl⟩

theorem remove (id : Id) (origin : Origin) : MadeOfChanges (ExceptT.mk (Host.remove id origin)) :=
  fun _ => ⟨[.remove id origin], rfl⟩

theorem removeKey (container : Id) (key : String) (origin : Origin) :
    MadeOfChanges (ExceptT.mk (Host.removeKey container key origin)) :=
  fun _ => ⟨[.removeKey container key origin], rfl⟩

theorem dropSchema (id : Id) :
    MadeOfChanges (liftM (Host.adjust (·.dropSchema id) : StateM Quiet Unit)) :=
  fun _ => ⟨[.dropSchema id], rfl⟩

theorem declareContainer (schema : Schema) :
    MadeOfChanges (ExceptT.mk (Host.declareContainer schema)) :=
  fun _ => ⟨[.declareContainer schema], rfl⟩

/-! ## Fragments -/

variable (f : Fragment)

theorem declareInto : MadeOfChanges f.declareInto := by
  refine bind (forM fun d => ?_) fun _ => forM fun d => ?_
  · unfold Fragment.declareContainer
    split
    · exact throw _
    · exact declareContainer _
  · exact bind (declare _ _ _) fun _ => pure _

theorem load : MadeOfChanges f.load := by
  refine bind (lift _) fun own => bind (forM declareContainer) fun _ => forM fun value => ?_
  refine bind store fun s => ?_
  split
  · exact bind (declare _ _ _) fun _ => pure _
  · exact pure _

theorem unload : MadeOfChanges f.unload := by
  refine bind (lift _) fun own => bind (forM fun schema => ?_) fun _ => forM fun value => ?_
  · exact bind (remove _ _) fun _ => dropSchema _
  · refine bind store fun s => ?_
    split
    · exact bind (remove _ _) fun _ => pure _
    · exact pure _

theorem reloadContainer (schema : Schema) : MadeOfChanges (Fragment.reloadContainer schema) := by
  refine bind store fun s => ?_
  split
  · exact declareContainer schema
  · refine bind (lift _) fun keys => bind (forM fun key => ?_) fun _ => bind store fun s => ?_
    · exact bind (removeKey _ _ _) fun _ => pure _
    · split
      · exact declareContainer schema
      · exact pure _

theorem reload : MadeOfChanges f.reload := by
  refine bind (lift _) fun own => bind (forM reloadContainer) fun _ => forM fun value => ?_
  exact bind (declare _ _ _) fun _ => pure _

theorem keeps {P : Quiet → Prop} (hx : MadeOfChanges x)
    (hstep : ∀ (change : Change) (q : Quiet), P q → P (q.step change).2) (h : P q) :
    P (q.attempt x).2 := by
  obtain ⟨changes, hchanges⟩ := hx q
  rw [hchanges]
  exact after_keeps (fun change _ => hstep change) h

theorem wellFormed (hx : MadeOfChanges x) (h : q.store.WellFormed) :
    (q.attempt x).2.store.WellFormed :=
  hx.keeps (P := fun q => q.store.WellFormed) (fun change _ h => wellFormed_step h change) h

end MadeOfChanges

end

end Quiet

end ValueTree
