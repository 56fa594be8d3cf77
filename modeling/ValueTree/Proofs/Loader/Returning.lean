import ValueTree.Proofs.Loader.Leading
import ValueTree.Proofs.Loader.Orders
import ValueTree.Proofs.Session.Ending

/-!
# Loaders that come to an end

The file that a loader works on may itself give the loader an order, and with it another file. That
goes on only while the loader is told to overwrite: loading keeps the orders as they are, and
unloading does not give any. So an action comes to an end if no file leads back to itself. Orders
that vanished are given once more when they come back, but they vanish with a key that nobody puts
back.
-/

namespace ValueTree

/-- Asks the store or changes it, or has the loader act. -/
def Command.onStore : Command → Bool
  | .query _ | .change _ | .fragment .. | .loader .trigger | .loader .status
  | .loader (.run ..) => true
  | _ => false

namespace Loader

/-- A loader is told what to do with which file. -/
structure Ordered (l : Loader) (bound : Nat) (a : LoaderAction) (path : String) (s : Store) :
    Prop where
  anchors : l.anchors s ≤ bound
  action : l.action s = .ok a
  file : l.file s = path

/-- A loader is not told to overwrite. -/
structure Mild (l : Loader) (bound : Nat) (s : Store) : Prop where
  anchors : l.anchors s ≤ bound
  action : l.action s ≠ .ok .overwrite

/-- A command that has a loader act at once, and the store that the loader finds. -/
inductive Prompted (l : Loader) (s : Store) : Command → Store → Prop
  | call : Prompted l s (.loader .trigger) s
  | write {id : Id} {payload : Payload} {origin : Origin} : id = l.actionId ∨ id = l.fileId →
    (s.set id payload origin).result = .ok .success →
      Prompted l s (.change (.set id payload origin)) (s.set id payload origin).store

variable {l : Loader} {s t : Store} {bound : Nat} {a : LoaderAction} {path : String}

namespace Spared

variable (h : l.Spared s t)

include h

theorem ordered (hs : l.Ordered bound a path s) : l.Ordered bound a path t where
  anchors := h.anchors.trans hs.anchors
  action := (action_congr h.action).trans hs.action
  file := (file_congr h.file).trans hs.file

theorem mild (hs : l.Mild bound s) : l.Mild bound t where
  anchors := h.anchors.trans hs.anchors
  action := action_congr h.action ▸ hs.action

end Spared

namespace Ordered

variable (h : l.Ordered bound a path s) (hpath : path ≠ "")

include h

theorem payload_action : ∃ e, s.payload? l.actionId = some (.enum e) ∧ e.value = a.code :=
  action_eq_ok.mp h.action

include hpath

theorem payload_file : s.payload? l.fileId = some (.text path) := (file_eq hpath).mp h.file

/-- An order that is there has a kind, and takes on no container. -/
theorem refuses_container {id : Id} (hid : id = l.actionId ∨ id = l.fileId) (order : KeyOrder) :
    ∃ p, s.payload? id = some p ∧ ∀ status r, p.assign (.container order) ≠ .ok (status, r) := by
  rcases hid with rfl | rfl
  · obtain ⟨e, he, -⟩ := h.payload_action
    refine ⟨_, he, fun status r hassign => ?_⟩
    obtain ⟨source, hsource, -⟩ := Payload.assign_enum hassign
    cases hsource
  · refine ⟨_, h.payload_file hpath, fun status r hassign => ?_⟩
    obtain ⟨y, hy, -⟩ := Payload.assign_text hassign
    cases hy

end Ordered

end Loader

namespace Duty

variable {α : Type} {d : Duty} {P Q : Store → Prop} {bound : Nat} {path : String} {a : LoaderAction}
  {id : Id} {payload : Payload} {access : Access}

/-! ## Single changes -/

/-- What is declared beside the orders leaves them alone. -/
theorem brings_declare_other (haction : id ≠ d.loader.actionId) (hfile : id ≠ d.loader.fileId)
    (hspared : ∀ s t, d.loader.Spared s t → P s → P t) :
    d.Brings P (Host.declare id payload access : Run (Except StoreError SetStatus)) fun _ => P := by
  refine brings_change (fun s => .declare ..) fun s hs hp => ?_
  have hquiet : (∀ event ∈ (s.declare id payload access).events,
      d.loader.isOrder event = false) ∧ d.loader.Spared s (s.declare id payload access).store := by
    rcases hs.declare_cases with ⟨hevents, -⟩ | ⟨value, hvalue⟩
    · refine ⟨fun event hmem => absurd (hevents ▸ hmem) List.not_mem_nil, Loader.spared_silent hs ?_⟩
      exact hevents ▸ .declare id payload access
    · refine ⟨fun event hmem => ?_, Loader.spared_announced hs hvalue haction hfile⟩
      obtain ⟨rfl, htold | htold, -⟩ := hvalue <;>
      · obtain rfl := List.mem_singleton.mp (htold ▸ hmem)
        simp [Loader.isOrder, haction, hfile]
  exact (brings_unordered hquiet.1).post fun _ t ht => ht ▸ hspared _ _ hquiet.2 hp

/-- A declaration of an order leaves it as it is, or the loader acts at once. -/
theorem brings_declare_order {N : Store → Prop}
    {Q : Except StoreError SetStatus → Store → Prop}
    (hid : id = d.loader.actionId ∨ id = d.loader.fileId)
    (hidle : ∀ s t result, P s → d.loader.Spared s t →
      (∀ p status, s.payload? id = some p → result = .ok status →
        p.assign payload = .ok (.sameValue, p)) → Q result t)
    (hnew : ∀ s t p', P s → (∀ p, s.payload? id = some p → p.assign payload = .ok (.success, p')) →
      (∀ x, t.payload? x = if id = x then some p' else s.payload? x) →
        d.loader.anchors t ≤ d.loader.anchors s → N t)
    (hcall : d.Brings N (Run.call (.trigger d.serial)) fun _ s => ∀ result, Q result s) :
    d.Brings P (Host.declare id payload access : Run (Except StoreError SetStatus)) Q := by
  refine brings_change (fun s => .declare ..) fun s hs hp => ?_
  rcases hs.declare_cases with ⟨hevents, hsame⟩ | ⟨value, hvalue⟩
  · have hspared : d.loader.Spared s (s.declare id payload access).store :=
      Loader.spared_silent hs (hevents ▸ .declare id payload access)
    rw [hevents]
    exact brings_pure_here (hidle _ _ _ hp hspared hsame)
  · have hafter : N (s.declare id payload access).store :=
      hnew _ _ _ hp (fun _ => hvalue.taken) (fun x => Loader.payload?_announced hs hvalue)
        (Loader.anchors_declare hs)
    have htold (event : Event) (hevent : event = .added value .local ∨ event = .changed value .local) :
        d.Brings (· = (s.declare id payload access).store) ([event].forM Run.deliver)
          fun _ => Q (s.declare id payload access).result := by
      refine (brings_order hcall ?_).conseq (fun t ht => ht ▸ hafter) fun _ t ht => ht _
      exact Loader.isOrder_iff.mpr ⟨value, .local, hevent, hvalue.about ▸ hid⟩
    rcases hvalue.told with hevents | hevents
    · exact hevents ▸ htold _ (Or.inl rfl)
    · exact hevents ▸ htold _ (Or.inr rfl)

theorem brings_putSchema (schema : Schema) (hspared : ∀ s t, d.loader.Spared s t → P s → P t) :
    d.Brings P (Host.adjust (·.putSchema schema) : Run Unit) fun _ => P := by
  refine (brings_change (Q := fun _ => P) (fun s => .putSchema schema) fun s hs hp => ?_).bind
    fun _ => brings_pure fun _ h => h
  exact brings_pure_here (hspared s _ (Loader.spared_silent hs (.putSchema schema)) hp)

theorem brings_dropSchema (id : Id) (hspared : ∀ s t, d.loader.Spared s t → P s → P t) :
    d.Brings P (Host.adjust (·.dropSchema id) : Run Unit) fun _ => P := by
  refine (brings_change (Q := fun _ => P) (fun s => .dropSchema id) fun s hs hp => ?_).bind
    fun _ => brings_pure fun _ h => h
  exact brings_pure_here (hspared s _ (Loader.spared_silent hs (.dropSchema id)) hp)

/-- A removal gives no orders, but may take them away. -/
theorem brings_remove {origin : Origin} (h : ∀ s t, P s →
      (∀ x, t.payload? x = s.payload? x ∨ t.payload? x = none) →
        d.loader.anchors t ≤ d.loader.anchors s → P t) :
    d.Brings P (Host.remove id origin : Run (Except StoreError Bool)) fun _ => P := by
  refine brings_change (fun s => .remove ..) fun s hs hp => ?_
  refine (brings_unordered fun event hmem => ?_).post fun _ t ht => ht ▸ h s _ hp
    (fun x => (Loader.orders_remove (l := d.loader) hs).1) (Loader.orders_remove (x := id) hs).2
  obtain ⟨r, rfl⟩ := Store.mem_events_remove hmem
  rfl

theorem brings_removeKey {key : String} {origin : Origin}
    (hspared : ∀ s t, d.loader.Spared s t → P s → P t)
    (hfewer : ∀ s t, d.loader.anchors t < d.loader.anchors s → P s → P t) :
    d.Brings P (Host.removeKey id key origin : Run (Except StoreError Bool)) fun _ => P := by
  refine brings_change (fun s => .removeKey ..) fun s hs hp => ?_
  refine (brings_unordered fun event hmem => ?_).post fun _ t ht => ?_
  · obtain rfl := Store.mem_events_removeKey hmem
    rfl
  · subst ht
    rcases Loader.orders_removeKey (l := d.loader) hs with h | h
    · exact hspared _ _ h hp
    · exact hfewer _ _ h hp

theorem brings_declareContainer {schema : Schema}
    (hdeclare : d.Brings P (Host.declare schema.id (.container schema.order) .readWrite :
      Run (Except StoreError SetStatus)) fun _ => P)
    (hspared : ∀ s t, d.loader.Spared s t → P s → P t) :
    d.Brings P (Host.declareContainer schema : Run (Except StoreError Unit)) fun _ => P := by
  unfold Host.declareContainer
  split
  · exact brings_pure fun _ h => h
  · refine hdeclare.bind fun result => ?_
    cases result with
    | error e => exact brings_pure fun _ h => h
    | ok status =>
      exact (brings_putSchema schema hspared).bind fun _ => brings_pure fun _ h => h

/-! ## Loading -/

theorem declareContainer_ordered (hpath : path ≠ "") (schema : Schema) :
    d.Brings (d.loader.Ordered bound a path)
      (Host.declareContainer schema : Run (Except StoreError Unit))
      fun _ => d.loader.Ordered bound a path := by
  refine brings_declareContainer ?_ fun _ _ h => h.ordered
  by_cases hid : schema.id = d.loader.actionId ∨ schema.id = d.loader.fileId
  · refine brings_declare_order (N := fun _ => False) hid (fun _ _ _ hs h _ => h.ordered hs) ?_
      fun _ _ => False.elim
    intro s t p' hs htaken _ _
    obtain ⟨p, hp, hrefused⟩ := hs.refuses_container hpath hid schema.order
    exact hrefused _ _ (htaken p hp)
  · obtain ⟨haction, hfile⟩ := not_or.mp hid
    exact brings_declare_other haction hfile fun _ _ h => h.ordered

theorem loadValue_ordered (hpath : path ≠ "") (value : Value) :
    d.Brings (d.loader.Ordered bound a path)
      (Fragment.loadValue value : ExceptT StoreError Run Unit).run
      fun _ => d.loader.Ordered bound a path := by
  refine brings_lift_store fun s hs => ?_
  split
  · rename_i hmissing
    have hother {id : Id} {p : Payload} (hp : s.payload? id = some p) : value.id ≠ id := by
      rintro rfl
      obtain ⟨v, hget, -⟩ := Option.map_eq_some_iff.mp hp
      obtain ⟨node, hnode, -⟩ := Option.map_eq_some_iff.mp hget
      simp [Store.has, hnode] at hmissing
    obtain ⟨e, he, -⟩ := hs.payload_action
    refine (keeps_discard ?_).here hs
    exact brings_declare_other (hother he) (hother (hs.payload_file hpath)) fun _ _ h => h.ordered
  · exact brings_pure_here hs

theorem load_ordered (hpath : path ≠ "") (f : Fragment) :
    d.Brings (d.loader.Ordered bound a path) (f.load : ExceptT StoreError Run Unit).run
      fun _ => d.loader.Ordered bound a path :=
  brings_lift_except
    (fun _ _ => keeps_bind (keeps_forM fun schema _ => declareContainer_ordered hpath schema)
      fun _ => keeps_forM fun value _ => loadValue_ordered hpath value)
    fun _ _ _ h => h

/-! ## Unloading -/

theorem remove_mild (id : Id) (origin : Origin) :
    d.Brings (d.loader.Mild bound) (Host.remove id origin : Run (Except StoreError Bool))
      fun _ => d.loader.Mild bound := by
  refine brings_remove fun s t hs hpayload hanchors => ⟨hanchors.trans hs.anchors, ?_⟩
  rcases hpayload d.loader.actionId with hsame | hgone
  · rw [Loader.action_congr hsame]
    exact hs.action
  · intro haction
    obtain ⟨e, he, -⟩ := Loader.action_eq_ok.mp haction
    cases hgone.symm.trans he

theorem unload_mild (f : Fragment) :
    d.Brings (d.loader.Mild bound) (f.unload : ExceptT StoreError Run Unit).run
      fun _ => d.loader.Mild bound := by
  refine brings_lift_except (fun _ _ => keeps_bind (keeps_forM fun schema _ => ?_)
    fun _ => keeps_forM fun value _ => ?_) fun _ _ _ h => h
  · exact keeps_bind (remove_mild schema.id .local) fun _ =>
      keeps_lift (brings_dropSchema _ fun _ _ h => h.mild)
  · refine brings_lift_store fun s hs => ?_
    split
    · exact (keeps_discard (remove_mild value.id .local)).here hs
    · exact brings_pure_here hs

/-! ## Acting once -/

/-- A loader that acts reports beside its orders. -/
theorem brings_trigger (hidle : ∀ s, P s → Q s) (hspared : ∀ s t, d.loader.Spared s t → Q s → Q t)
    (h : ∀ s f action, P s → d.loader.file s ≠ "" → d.loader.action s = .ok action →
      Fragment.read d.files (d.loader.resolve (d.loader.file s)) = .ok f →
        d.Brings (· = s) (Loader.applyAction action f : ExceptT StoreError Run Unit).run
          fun _ => Q) :
    d.Brings P (d.loader.trigger d.files : Run LoadStatus) fun _ => Q := by
  refine brings_store fun s hs => ?_
  split
  · exact brings_pure_here (hidle s hs)
  · rename_i hfile
    have hreport (status : LoadStatus) : d.Brings Q
        (Host.declare d.loader.statusId status.payload .readOnly :
          Run (Except StoreError SetStatus)) fun _ => Q :=
      brings_declare_other d.loader.statusId_ne.1 d.loader.statusId_ne.2 hspared
    have hrest (result : Except SchemaError Unit) : d.Brings Q (do
        let _ ← (Host.declare d.loader.statusId (Loader.reported result).payload .readOnly :
          Run (Except StoreError SetStatus))
        pure (Loader.reported result)) fun _ => Q :=
      (hreport _).bind fun _ => brings_pure fun _ ht => ht
    dsimp only
    split
    · exact (brings_pure_here (hidle s hs)).bind hrest
    · rename_i action haction
      refine Brings.bind (Q := fun _ => Q) ?_ hrest
      unfold Loader.run
      split
      · exact brings_pure_here (hidle s hs)
      · rename_i f hread
        refine (h s f action hs hfile haction hread).bind fun result => ?_
        split <;> exact brings_pure fun _ ht => ht

/-- A loader that is not told to overwrite acts without giving orders. -/
theorem trigger_mild : d.Brings (d.loader.Mild bound) (d.loader.trigger d.files : Run LoadStatus)
    fun _ => d.loader.Mild bound := by
  refine brings_trigger (fun _ hs => hs) (fun _ _ h => h.mild) ?_
  intro s f action hs hfile haction _
  cases action with
  | load =>
    have hloaded : d.Brings (d.loader.Ordered bound .load (d.loader.file s))
        (f.load : ExceptT StoreError Run Unit).run
        fun _ => d.loader.Ordered bound .load (d.loader.file s) := load_ordered hfile f
    have hbefore : d.loader.Ordered bound .load (d.loader.file s) s := ⟨hs.anchors, haction, rfl⟩
    refine hloaded.conseq (fun t ht => ht ▸ hbefore) fun _ t ht => ⟨ht.anchors, ?_⟩
    rw [ht.action]
    nofun
  | unload => exact (unload_mild f).here hs
  | overwrite => exact absurd haction hs.action

theorem call_mild : d.Brings (d.loader.Mild bound) (Run.call (.trigger d.serial))
    fun _ => d.loader.Mild bound := brings_call trigger_mild

/-! ## Overwriting -/

/-- What comes of the calls that overwriting from a file may lead to. -/
structure Prepared (d : Duty) (bound : Nat) (path : String) : Prop where
  named : path ≠ ""
  fewer : d.Brings (d.loader.anchors · < bound) (Run.call (.trigger d.serial))
    fun _ => (d.loader.anchors · < bound)
  next {y : String} : d.loader.Leads d.files path y →
    d.Brings (fun s => d.loader.anchors s ≤ bound ∧ d.loader.file s = y)
      (Run.call (.trigger d.serial)) fun _ => (d.loader.anchors · ≤ bound)

/-- How things stand while a loader overwrites from a file and sees to the containers. -/
def Before (d : Duty) (bound : Nat) (path : String) (s : Store) : Prop :=
  d.loader.anchors s < bound ∨ d.loader.Ordered bound .overwrite path s

/-- How things stand while a loader overwrites from a file and has these values left to declare. -/
inductive Stage (d : Duty) (bound : Nat) (path : String) (rest : List Value) (s : Store) : Prop
  /-- A key went on the way to the orders. -/
  | fewer (anchors : d.loader.anchors s < bound)
  /-- The orders are as they were. -/
  | same (ordered : d.loader.Ordered bound .overwrite path s)
    (next : ∀ y, y ≠ path → d.loader.Redirects rest y → d.loader.Leads d.files path y)
  /-- The action is another one by now. -/
  | mild (mild : d.loader.Mild bound s) (rest : ∀ v ∈ rest, v.id ≠ d.loader.actionId)
  /-- There are no orders left. -/
  | past (anchors : d.loader.anchors s ≤ bound)
    (rest : ∀ v ∈ rest, v.id ≠ d.loader.actionId ∧ v.id ≠ d.loader.fileId)

/-- How things stand after one value more. After a refusal nothing else is declared. -/
def Onward (d : Duty) (bound : Nat) (path : String) (rest : List Value) :
    Except StoreError α → Store → Prop
  | .ok _, s => d.Stage bound path rest s
  | .error _, s => d.loader.anchors s ≤ bound

theorem Stage.anchors {rest : List Value} {s : Store} (h : d.Stage bound path rest s) :
    d.loader.anchors s ≤ bound := by
  cases h with
  | fewer h => exact h.le
  | same h _ => exact h.anchors
  | mild h _ => exact h.anchors
  | past h _ => exact h

theorem Stage.onward {rest : List Value} {s : Store} (h : d.Stage bound path rest s)
    (result : Except StoreError α) : d.Onward bound path rest result s := by
  cases result with
  | ok a => exact h
  | error e => exact h.anchors

theorem stage_action {v : Value} {rest : List Value} (hv : v.id = d.loader.actionId)
    (hrest : ∀ w ∈ rest, w.id ≠ v.id)
    (hnext : ∀ y, y ≠ path → d.loader.Redirects (v :: rest) y → d.loader.Leads d.files path y) :
    d.Brings (d.loader.Ordered bound .overwrite path)
      (Host.declare v.id v.payload v.access : Run (Except StoreError SetStatus))
      (d.Onward bound path rest) := by
  refine brings_declare_order (N := d.loader.Mild bound) (Or.inl hv) ?_ ?_
    (call_mild.post fun _ s hs result => (Stage.mild hs (hv ▸ hrest)).onward result)
  · intro s t result hs hspared hsame
    cases result with
    | error e => exact (hspared.ordered hs).anchors
    | ok status =>
      obtain ⟨e, he, hcode⟩ := hs.payload_action
      have hassign := hsame _ status (hv ▸ he) rfl
      obtain ⟨source, hsource, -, hvalue⟩ := Payload.assign_enum hassign
      refine Stage.same (hspared.ordered hs) fun y hy hr => hnext y hy (hr.cons fun _ => ?_)
      exact ⟨source, hsource, (hvalue.mp rfl).trans hcode⟩
  · intro s t p' hs htaken hpayload hanchors
    obtain ⟨e, he, hcode⟩ := hs.payload_action
    obtain ⟨source, -, rfl, hvalue⟩ := Payload.assign_enum (htaken _ (hv ▸ he))
    refine ⟨hanchors.trans hs.anchors, fun haction => ?_⟩
    obtain ⟨e', he', hcode'⟩ := Loader.action_eq_ok.mp haction
    rw [hpayload, if_pos hv] at he'
    cases he'
    exact absurd (hvalue.mpr (hcode'.trans hcode.symm)) nofun

theorem stage_mild {v : Value} {rest : List Value}
    (hmild : ∀ w ∈ v :: rest, w.id ≠ d.loader.actionId) :
    d.Brings (d.loader.Mild bound)
      (Host.declare v.id v.payload v.access : Run (Except StoreError SetStatus))
      (d.Onward bound path rest) := by
  obtain ⟨hv, hrest⟩ := List.forall_mem_cons.mp hmild
  have hafter (s : Store) (hs : d.loader.Mild bound s) (result : Except StoreError SetStatus) :
      d.Onward bound path rest result s := (Stage.mild hs hrest).onward result
  by_cases hfile : v.id = d.loader.fileId
  · refine brings_declare_order (N := d.loader.Mild bound) (Or.inr hfile)
      (fun s t result hs hspared _ => hafter t (hspared.mild hs) result) ?_
      (call_mild.post fun _ s hs => hafter s hs)
    intro s t p' hs _ hpayload hanchors
    refine ⟨hanchors.trans hs.anchors, ?_⟩
    rw [Loader.action_congr ((hpayload _).trans (if_neg hv))]
    exact hs.action
  · exact (brings_declare_other hv hfile fun _ _ hspared hs => hspared.mild hs).post
      fun result s hs => hafter s hs result

namespace Prepared

variable (h : d.Prepared bound path)

include h

theorem declare_fewer : d.Brings (d.loader.anchors · < bound)
    (Host.declare id payload access : Run (Except StoreError SetStatus))
    fun _ => (d.loader.anchors · < bound) := by
  by_cases hid : id = d.loader.actionId ∨ id = d.loader.fileId
  · refine brings_declare_order hid (fun s t _ hs hspared _ => hspared.anchors.trans_lt hs)
      (fun s t _ hs _ _ hle => hle.trans_lt hs) (h.fewer.post fun _ t ht _ => ht)
  · obtain ⟨haction, hfile⟩ := not_or.mp hid
    exact brings_declare_other haction hfile fun _ _ hspared hs => hspared.anchors.trans_lt hs

theorem stage_file {v : Value} {rest : List Value} (hv : v.id = d.loader.fileId)
    (hrest : ∀ w ∈ rest, w.id ≠ v.id) (haction : ∀ w ∈ rest, w.id ≠ d.loader.actionId)
    (hnext : ∀ y, y ≠ path → d.loader.Redirects (v :: rest) y → d.loader.Leads d.files path y) :
    d.Brings (d.loader.Ordered bound .overwrite path)
      (Host.declare v.id v.payload v.access : Run (Except StoreError SetStatus))
      (d.Onward bound path rest) := by
  have hother : v.id ≠ d.loader.actionId := fun hid =>
    d.loader.actionId_ne_fileId (hid.symm.trans hv)
  refine brings_declare_order (Or.inr hv)
    (N := fun s => ∃ y, d.loader.Leads d.files path y ∧
      d.loader.anchors s ≤ bound ∧ d.loader.file s = y) ?_ ?_ ?_
  · intro s t result hs hspared _
    refine Stage.onward (.same (hspared.ordered hs) fun y hy hr => hnext y hy ?_) result
    exact hr.cons fun hid => absurd hid hother
  · intro s t p' hs htaken hpayload hanchors
    obtain ⟨y, hy, rfl, hsame⟩ := Payload.assign_text (htaken _ (hv ▸ hs.payload_file h.named))
    have hne : y ≠ path := fun hy => absurd (hsame.mpr hy) nofun
    refine ⟨y, hnext y hne ⟨⟨v, List.mem_cons_self, hv, hy⟩, fun hw hid => ?_⟩,
      hanchors.trans hs.anchors, ?_⟩
    · rcases List.mem_cons.mp hw with rfl | hw
      · exact absurd hid hother
      · exact absurd hid (haction _ hw)
    · rw [Loader.file_def, hpayload, if_pos hv]
      rfl
  · -- The loader acts from inside the declaration, and what is left to declare are no orders.
    rintro s hs ⟨y, hleads, hbefore⟩
    have hcall : d.Brings (fun s => d.loader.anchors s ≤ bound ∧ d.loader.file s = y)
        (Run.call (.trigger d.serial)) fun _ t => ∀ result : Except StoreError SetStatus,
          d.Onward bound path rest result t :=
      (h.next hleads).post fun _ t ht =>
        Stage.onward (.past ht fun w hw => ⟨haction w hw, hv ▸ hrest w hw⟩)
    exact hcall s hs hbefore

/-- The values come in the order of their ids, so the action is declared before the file. -/
theorem stage_next {v : Value} {rest : List Value}
    (hrest : ∀ w ∈ rest, compare v.id w.id = .lt) :
    d.Brings (d.Stage bound path (v :: rest))
      (Host.declare v.id v.payload v.access : Run (Except StoreError SetStatus))
      (d.Onward bound path rest) := by
  have hdiffers : ∀ w ∈ rest, w.id ≠ v.id := by
    intro w hw hid
    have hlt := hrest w hw
    rw [hid, Std.ReflOrd.compare_self] at hlt
    cases hlt
  intro s hs hstage
  cases hstage with
  | fewer hfewer =>
    exact (h.declare_fewer.post fun result t ht => (Stage.fewer ht).onward result) s hs hfewer
  | same hordered hnext =>
    by_cases haction : v.id = d.loader.actionId
    · exact stage_action haction hdiffers hnext s hs hordered
    · by_cases hfile : v.id = d.loader.fileId
      · refine h.stage_file hfile hdiffers (fun w hw hid => ?_) hnext s hs hordered
        have hlt := hrest w hw
        rw [hfile, hid] at hlt
        exact absurd (d.loader.compare_orders.symm.trans hlt) nofun
      · refine ((brings_declare_other haction hfile fun _ _ hspared hs =>
          hspared.ordered hs).post fun result t ht => ?_) s hs hordered
        refine Stage.onward (.same ht fun y hy hr => hnext y hy ?_) result
        exact hr.cons fun hid => absurd hid haction
  | mild hmild hnone => exact stage_mild hnone s hs hmild
  | past hanchors hpast =>
    obtain ⟨⟨haction, hfile⟩, hnone⟩ := List.forall_mem_cons.mp hpast
    refine ((brings_declare_other haction hfile fun _ _ hspared hs =>
      hspared.anchors.trans hs).post fun result t ht => ?_) s hs hanchors
    exact Stage.onward (.past ht hnone) result

theorem declare_values {values : List Value}
    (hsorted : values.Pairwise fun v w => compare v.id w.id = .lt) :
    d.Brings (d.Stage bound path values)
      (values.forM fun v => do
        let _ ← ExceptT.mk (Host.declare v.id v.payload v.access) : ExceptT StoreError Run Unit).run
      fun _ => (d.loader.anchors · ≤ bound) := by
  induction values with
  | nil => exact brings_pure fun _ hs => hs.anchors
  | cons v rest ih =>
    obtain ⟨hv, hrest⟩ := List.pairwise_cons.mp hsorted
    have hnext : d.Brings (d.Stage bound path (v :: rest))
        (do let _ ← ExceptT.mk (Host.declare v.id v.payload v.access) :
          ExceptT StoreError Run Unit).run (d.Onward bound path rest) :=
      (h.stage_next hv).bind_except (fun _ => brings_pure fun _ ht => ht) fun _ _ ht => ht
    exact hnext.bind_except (fun _ => ih hrest) fun _ _ ht => ht

/-- Containers are emptied, or declared where there are none, but not in the place of orders that
are there. -/
theorem reloadContainer_before (schema : Schema) :
    d.Brings (d.Before bound path) (Fragment.reloadContainer schema : ExceptT StoreError Run Unit).run
      fun _ => d.Before bound path := by
  have hdeclare : d.Brings (d.Before bound path)
      (Host.declareContainer schema : Run (Except StoreError Unit)) fun _ => d.Before bound path := by
    rintro s hs (hfewer | hordered)
    · have hcontainer : d.Brings (d.loader.anchors · < bound)
          (Host.declareContainer schema : Run (Except StoreError Unit))
          fun _ => (d.loader.anchors · < bound) :=
        brings_declareContainer h.declare_fewer fun _ _ hspared hs => hspared.anchors.trans_lt hs
      exact (hcontainer s hs hfewer).mono fun _ _ ht => ht.imp_right Or.inl
    · exact (declareContainer_ordered h.named schema s hs hordered).mono fun _ _ ht =>
        ht.imp_right Or.inr
  refine brings_lift_store fun s hs => ?_
  split
  · exact hdeclare.here hs
  · refine brings_lift_except (fun keys _ => ?_) fun _ _ _ ht => ht ▸ hs
    refine Brings.here (keeps_bind (keeps_forM fun key _ => keeps_discard ?_) fun _ => ?_) hs
    · refine brings_removeKey (fun s t hspared hs => ?_) fun s t hlt hs => Or.inl ?_
      · exact hs.imp hspared.anchors.trans_lt hspared.ordered
      · exact hs.elim hlt.trans fun hordered => hlt.trans_le hordered.anchors
    · refine brings_lift_store fun s hs => ?_
      split
      · exact hdeclare.here hs
      · exact brings_pure_here hs

theorem reload_ends {f : Fragment} (hread : Fragment.read d.files (d.loader.resolve path) = .ok f) :
    d.Brings (d.loader.Ordered bound .overwrite path) (f.reload : ExceptT StoreError Run Unit).run
      fun _ => (d.loader.anchors · ≤ bound) := by
  refine brings_lift_except (fun own hown => ?_) fun _ _ _ hs => hs.anchors
  have hsorted : (Fragment.plainValues own).Pairwise fun v w => compare v.id w.id = .lt :=
    (Fragment.alone_of_eq_ok hown).wellFormed.indexed.pairwise_values.filter _
  refine Brings.bind_except ((keeps_forM fun schema _ => h.reloadContainer_before schema).pre
    fun _ => Or.inr) (fun _ => (h.declare_values hsorted).pre ?_) ?_
  · rintro s (hfewer | hordered)
    · exact .fewer hfewer
    · exact .same hordered fun y hy hr => ⟨h.named, hy, f, own, hread, hown, hr⟩
  · rintro e s (hfewer | hordered)
    · exact hfewer.le
    · exact hordered.anchors

theorem call_ordered : d.Brings (d.loader.Ordered bound .overwrite path)
    (Run.call (.trigger d.serial)) fun _ => (d.loader.anchors · ≤ bound) := by
  refine brings_call (brings_trigger (fun _ hs => hs.anchors)
    (fun _ _ hspared hs => hspared.anchors.trans hs) ?_)
  intro s f action hs _ haction hread
  cases hs.action.symm.trans haction
  exact (h.reload_ends (hs.file ▸ hread)).here hs

end Prepared

/-! ## Every call -/

/-- A loader that acts comes to an end, and no keys were added on the way to its orders. -/
theorem call_ends (h : WellFounded fun y x => d.loader.Leads d.files x y) (bound : Nat) :
    d.Brings (d.loader.anchors · ≤ bound) (Run.call (.trigger d.serial))
      fun _ => (d.loader.anchors · ≤ bound) := by
  -- Within the induction on the keys there is one on where the file leads: orders that went with a
  -- key may come back with any file, but not with the key.
  induction bound using Nat.strong_induction_on with
  | _ bound fewer =>
    suffices hfile : ∀ path, d.Brings
        (fun s => d.loader.anchors s ≤ bound ∧ d.loader.file s = path)
        (Run.call (.trigger d.serial)) fun _ => (d.loader.anchors · ≤ bound) from
      fun s hs hanchors => hfile _ s hs ⟨hanchors, rfl⟩
    intro path
    induction path using h.induction with
    | _ path next =>
      rintro s hs ⟨hanchors, rfl⟩
      by_cases haction : d.loader.action s.store = .ok .overwrite
      · by_cases hpath : d.loader.file s.store = ""
        · have hidle : d.Brings
              (fun t => d.loader.anchors t ≤ bound ∧ d.loader.file t = "")
              (Run.call (.trigger d.serial)) fun _ => (d.loader.anchors · ≤ bound) :=
            brings_call (brings_trigger (fun _ ht => ht.1)
              (fun _ _ hspared ht => hspared.anchors.trans ht)
              fun _ _ _ ht hsome _ _ => absurd ht.2 hsome)
          exact hidle s hs ⟨hanchors, hpath⟩
        · refine Prepared.call_ordered ⟨hpath, fun s hs hlt => ?_, fun hleads => next _ hleads⟩ s hs
            ⟨hanchors, haction, rfl⟩
          exact ((fewer _ hlt).post fun _ t ht => ht.trans_lt hlt) s hs le_rfl
      · exact (call_mild.post fun _ t ht => ht.anchors) s hs ⟨hanchors, haction⟩

/-! ## Commands -/

theorem withLoader_ends {act : Loader → Run Reply} {R : Reply → Store → Prop}
    (hact : d.Brings P (act d.loader) R) : d.Brings P (Run.withLoader act) R := by
  refine brings_get fun s hs => ?_
  obtain ⟨seat, hseat, hserial, hloader⟩ := hs.attached?
  simp only [hseat, hserial, hloader]
  exact brings_held hact

/-- A loader that is not told to overwrite comes to an end wherever its file leads. -/
theorem prompted_ends {s : Session} {command : Command} {found : Store} (hs : d.Ready s)
    (h : d.loader.Prompted s.store command found)
    (haction : d.loader.action found ≠ .ok .overwrite) :
    (Run.act command).Ends s fun _ => d.Ready := by
  have hmild : d.loader.Mild (d.loader.anchors found) found := ⟨le_rfl, haction⟩
  cases h with
  | call =>
    have hcall : d.Brings (d.loader.Mild (d.loader.anchors s.store)) (Run.loader .trigger)
        fun _ => d.loader.Mild (d.loader.anchors s.store) := by
      simp only [Run.loader]
      refine withLoader_ends (brings_get fun s hs => ?_)
      rw [hs.files]
      exact trigger_mild.bind fun _ => brings_pure fun _ ht => ht
    exact (hcall s hs hmild).mono fun _ _ ht => ht.1
  | @write id payload origin =>
    have hset : d.Brings (· = s.store)
        (Host.set id payload origin : Run (Except StoreError SetStatus))
        fun _ => d.loader.Mild (d.loader.anchors (s.store.set id payload origin).store) := by
      refine brings_change (fun s => .write ..) fun t _ ht => ?_
      subst ht
      exact Brings.here (brings_forM fun _ _ => brings_deliver (fun _ => call_mild) fun _ _ ht => ht)
        hmild
    have hanswered : d.Brings (· = s.store)
        ((Change.set id payload origin).perform : Run (Except StoreError Answer))
        fun _ _ => True := hset.bind fun _ => brings_pure fun _ _ => trivial
    have hreplied : d.Brings (· = s.store) (Run.change (.set id payload origin)) fun _ _ => True :=
      hanswered.bind fun _ => brings_pure fun _ _ => trivial
    exact (hreplied s hs rfl).mono fun _ _ ht => ht.1

section

variable (h : WellFounded fun y x => d.loader.Leads d.files x y)

include h

theorem closed_ends : Closed fun {_} x => d.Brings (fun _ => True) x fun _ _ => True where
  pure _ := brings_pure fun _ _ => trivial
  bind hx hf := hx.bind hf
  store := brings_store fun _ _ => brings_pure fun _ _ => trivial
  change ht := brings_change ht fun _ _ _ => Brings.pre (brings_forM fun _ _ => brings_deliver
    (fun _ s hs _ => (call_ends h _ s hs le_rfl).mono fun _ _ ht => ⟨ht.1, trivial⟩)
    fun _ _ _ => trivial) fun _ _ => trivial

theorem loader_ends {command : LoaderCommand} (hcommand : (Command.loader command).onStore = true) :
    d.Brings (fun _ => True) (Run.loader command) fun _ _ => True := by
  have hclosed := closed_ends h
  unfold Run.loader
  cases command with
  | trigger =>
    refine withLoader_ends (brings_get fun s _ => ?_)
    exact (hclosed.trigger d.loader s.files).bind fun _ => brings_pure fun _ _ => trivial
  | status => exact withLoader_ends (brings_get fun s _ => brings_pure fun _ _ => trivial)
  | run action path =>
    refine withLoader_ends (brings_get fun s _ => ?_)
    exact (hclosed.run d.loader s.files action path).bind fun _ => brings_pure fun _ _ => trivial
  | _ => cases hcommand

/-- Whatever works on the store of a loader comes to an end. -/
theorem act_ends {command : Command} (hcommand : command.onStore = true) :
    d.Brings (fun _ => True) (Run.act command) fun _ _ => True := by
  have hclosed := closed_ends h
  cases command with
  | query query => exact brings_get fun s _ => brings_pure fun _ _ => trivial
  | change change => exact (hclosed.perform change).bind fun _ => brings_pure fun _ _ => trivial
  | fragment command text => exact hclosed.fragment command text
  | loader command => exact loader_ends h hcommand
  | _ => cases hcommand

end

end Duty

end ValueTree
