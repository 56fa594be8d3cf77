import ValueTree.Proofs.Store.Log
import ValueTree.Session.Run

/-!
# Computations that are made of changes

Whoever works on the store of a session does so by single changes, one after the other. What is true
of single changes, and of two computations in a row if it is true of each, is true of what messages
bring, of fragments and of loaders as well.
-/

namespace ValueTree

/-- A property of computations that all have which look at the store and change it. -/
structure Closed (P : {α : Type} → Run α → Prop) : Prop where
  pure {α : Type} (a : α) : P (pure a : Run α)
  bind {α β : Type} {x : Run α} {f : α → Run β} : P x → (∀ a, P (f a)) → P (x >>= f)
  store : P (Host.store : Run Store)
  change {α : Type} {step : Store → Outcome α} :
    (∀ s : Store, s.Turn (step s).store (step s).events) →
      P (Host.change step : Run (Except StoreError α))

namespace Closed

variable {P : {α : Type} → Run α → Prop} {α β ε : Type}

section

variable (h : Closed P)

include h

theorem map {x : Run α} (hx : P x) (f : α → β) : P (f <$> x) := h.bind hx fun _ => h.pure _

/-! ## With errors -/

theorem bind_except {x : ExceptT ε Run α} {f : α → ExceptT ε Run β} (hx : P x.run)
    (hf : ∀ a, P (f a).run) : P (x >>= f).run := by
  rw [ExceptT.run_bind]
  refine h.bind hx fun result => ?_
  cases result with
  | ok a => exact hf a
  | error e => exact h.pure _

theorem except_pure (a : α) : P (Pure.pure a : ExceptT ε Run α).run := h.pure _

theorem throw (e : ε) : P (MonadExcept.throw e : ExceptT ε Run α).run := h.pure _

theorem except_forM {xs : List α} {f : α → ExceptT ε Run PUnit} (hf : ∀ a, P (f a).run) :
    P (xs.forM f).run := by
  induction xs with
  | nil => exact h.except_pure _
  | cons x xs ih => exact h.bind_except (hf x) fun _ => ih

theorem lift {x : Run α} (hx : P x) : P (liftM x : ExceptT ε Run α).run := h.map hx _

theorem lift_except (result : Except ε α) : P (liftM result : ExceptT ε Run α).run := h.pure _

/-! ## Changes -/

section

variable (id : Id) (payload : Payload) (access : Access) (origin : Origin) (key : String)

theorem set : P (Host.set id payload origin : Run (Except StoreError SetStatus)) :=
  h.change fun _ => .write ..

theorem setValue (value : Value) :
    P (Host.setValue value origin : Run (Except StoreError SetStatus)) :=
  h.change fun _ => .write ..

theorem declare : P (Host.declare id payload access : Run (Except StoreError SetStatus)) :=
  h.change fun _ => .declare ..

theorem remove : P (Host.remove id origin : Run (Except StoreError Bool)) :=
  h.change fun _ => .remove ..

theorem removeWithToken (token : Token) :
    P (Host.removeWithToken id token origin : Run (Except StoreError Bool)) :=
  h.change fun _ => .removeWithToken ..

theorem addKey : P (Host.addKey id key origin : Run (Except StoreError Bool)) :=
  h.change fun _ => .addKey ..

theorem removeKey : P (Host.removeKey id key origin : Run (Except StoreError Bool)) :=
  h.change fun _ => .removeKey ..

theorem putSchema (schema : Schema) : P (Host.adjust (·.putSchema schema) : Run Unit) :=
  h.bind (h.change fun _ => .putSchema schema) fun _ => h.pure _

theorem dropSchema : P (Host.adjust (·.dropSchema id) : Run Unit) :=
  h.bind (h.change fun _ => .dropSchema id) fun _ => h.pure _

end

theorem declareContainer (schema : Schema) :
    P (Host.declareContainer schema : Run (Except StoreError Unit)) := by
  unfold Host.declareContainer
  split
  · exact h.pure _
  · refine h.bind (h.declare _ _ _) fun result => ?_
    split
    · exact h.pure _
    · exact h.bind (h.putSchema _) fun _ => h.pure _

theorem perform (change : Change) : P (change.perform : Run (Except StoreError Answer)) := by
  cases change with
  | set id payload origin => exact h.bind (h.set _ _ _) fun _ => h.pure _
  | setValue value origin => exact h.bind (h.setValue _ _) fun _ => h.pure _
  | declare id payload access => exact h.bind (h.declare _ _ _) fun _ => h.pure _
  | remove id origin => exact h.bind (h.remove _ _) fun _ => h.pure _
  | removeWithToken id token origin =>
    exact h.bind (h.removeWithToken _ _ _) fun _ => h.pure _
  | declareContainer schema => exact h.bind (h.declareContainer schema) fun _ => h.pure _
  | dropSchema id => exact h.bind h.store fun _ => h.bind (h.dropSchema _) fun _ => h.pure _
  | addKey container key origin => exact h.bind (h.addKey _ _ _) fun _ => h.pure _
  | removeKey container key origin => exact h.bind (h.removeKey _ _ _) fun _ => h.pure _

end

/-! ## Messages

What messages bring is taken over by who may look at the filter as well. -/

section

variable (h : Closed P)

include h

theorem forM {xs : List α} {f : α → Run PUnit} (hf : ∀ a, P (f a)) : P (xs.forM f) := by
  induction xs with
  | nil => exact h.pure _
  | cons x xs ih => exact h.bind (hf x) fun _ => ih

theorem applyRemoval (id : Id) (token? : Option Token) :
    P (Receiver.applyRemoval id token? : Run Unit) := by
  unfold Receiver.applyRemoval
  split
  · exact h.bind (h.removeWithToken _ _ _) fun _ => h.pure _
  · exact h.bind (h.remove _ _) fun _ => h.pure _

theorem materialize (ids : List Id) : P (Client.materialize ids : Run Unit) := by
  refine h.forM fun id => h.bind h.store fun store => ?_
  split
  · exact h.bind (h.declare _ _ _) fun _ => h.pure _
  · exact h.pure _

variable (hfilter : P (Receiver.filter : Run Filter))

include hfilter

theorem applyValue (value : Value) : P (Receiver.applyValue value : Run Bool) := by
  refine h.bind hfilter fun filter => h.bind h.store fun store => ?_
  split
  · exact h.pure _
  · split
    · exact h.pure _
    · exact h.bind (h.setValue _ _) fun _ => h.pure _

theorem applyUpdate (update : Update) : P (Receiver.applyUpdate update : Run Bool) := by
  cases update with
  | set value => exact h.applyValue hfilter value
  | addKey container key => exact h.bind (h.addKey _ _ _) fun _ => h.pure _
  | removeKey container key => exact h.bind (h.removeKey _ _ _) fun _ => h.pure _

theorem applyResult (status : Status) (values : List Value) :
    P (Receiver.applyResult status values : Run Unit) := by
  cases status with
  | success => exact h.forM fun value => h.bind (h.applyValue hfilter value) fun _ => h.pure _
  | notFound => exact h.forM fun value => h.bind (h.remove _ _) fun _ => h.pure _
  | other code => exact h.pure _

end

/-! ## Fragments -/

section

variable (h : Closed P) (f : Fragment)

include h

theorem declareInto : P (f.declareInto : ExceptT StoreError Run Unit).run := by
  refine h.bind_except (h.except_forM fun d => ?_) fun _ => h.except_forM fun d => ?_
  · unfold Fragment.declareContainer
    split
    · exact h.throw _
    · exact h.declareContainer _
  · exact h.bind_except (h.declare _ _ _) fun _ => h.except_pure _

theorem load : P (f.load : ExceptT StoreError Run Unit).run := by
  refine h.bind_except (h.lift_except _) fun _ =>
    h.bind_except (h.except_forM h.declareContainer) fun _ => h.except_forM fun value => ?_
  refine h.bind_except (h.lift h.store) fun store => ?_
  split
  · exact h.bind_except (h.declare _ _ _) fun _ => h.except_pure _
  · exact h.except_pure _

theorem unload : P (f.unload : ExceptT StoreError Run Unit).run := by
  refine h.bind_except (h.lift_except _) fun _ =>
    h.bind_except (h.except_forM fun schema => ?_) fun _ => h.except_forM fun value => ?_
  · exact h.bind_except (h.remove _ _) fun _ => h.lift (h.dropSchema _)
  · refine h.bind_except (h.lift h.store) fun store => ?_
    split
    · exact h.bind_except (h.remove _ _) fun _ => h.except_pure _
    · exact h.except_pure _

theorem reloadContainer (schema : Schema) :
    P (Fragment.reloadContainer schema : ExceptT StoreError Run Unit).run := by
  refine h.bind_except (h.lift h.store) fun store => ?_
  split
  · exact h.declareContainer schema
  · refine h.bind_except (h.lift_except _) fun keys => ?_
    refine h.bind_except (h.except_forM fun key => ?_) fun _ => ?_
    · exact h.bind_except (h.removeKey _ _ _) fun _ => h.except_pure _
    · refine h.bind_except (h.lift h.store) fun store => ?_
      split
      · exact h.declareContainer schema
      · exact h.except_pure _

theorem reload : P (f.reload : ExceptT StoreError Run Unit).run := by
  refine h.bind_except (h.lift_except _) fun own => ?_
  refine h.bind_except (h.except_forM h.reloadContainer) fun _ => h.except_forM fun value => ?_
  exact h.bind_except (h.declare _ _ _) fun _ => h.except_pure _

theorem fragment (command : FragmentCommand) (text : String) :
    P (Run.fragment command text) := by
  unfold Run.fragment
  split
  · exact h.pure _
  · rename_i f _
    refine h.bind ?_ fun _ => h.pure _
    cases command with
    | load => exact h.load f
    | unload => exact h.unload f
    | reload => exact h.reload f
    | declare => exact h.declareInto f

end

/-! ## Loaders -/

section

variable (h : Closed P) (l : Loader)

include h

theorem declareMissing (id : Id) (payload : Payload) (access : Access) :
    P (Loader.declareMissing id payload access : ExceptT StoreError Run Unit).run := by
  refine h.bind_except (h.lift h.store) fun store => ?_
  split
  · exact h.bind_except (h.declare _ _ _) fun _ => h.except_pure _
  · exact h.except_pure _

theorem attach : P (l.attach : ExceptT StoreError Run Unit).run :=
  h.bind_except (h.declareMissing _ _ _) fun _ =>
    h.bind_except (h.declareMissing _ _ _) fun _ => h.declareMissing _ _ _

theorem run (files : FileTree) (action : LoaderAction) (path : String) :
    P (l.run files action path : Run (Except SchemaError Unit)) := by
  unfold Loader.run
  split
  · exact h.pure _
  · rename_i fragment _
    refine h.bind ?_ fun result => ?_
    · cases action with
      | load => exact h.load fragment
      | unload => exact h.unload fragment
      | overwrite => exact h.reload fragment
    · split <;> exact h.pure _

theorem trigger (files : FileTree) : P (l.trigger files : Run LoadStatus) := by
  refine h.bind h.store fun store => ?_
  split
  · exact h.pure _
  · split
    · exact h.bind (h.pure _) fun _ => h.bind (h.declare _ _ _) fun _ => h.pure _
    · exact h.bind (h.run l _ _ _) fun _ => h.bind (h.declare _ _ _) fun _ => h.pure _

end

end Closed

end ValueTree
