import ValueTree.Proofs.Store.Agreement
import ValueTree.Sync.Inbound
import ValueTree.Sync.Outbound

/-!
# Mirroring

What one store tells of its local changes, carried out on another store that was equal to it, makes
them equal again: they stay in step change by change.
-/

namespace ValueTree

/-! ## Hearing of an event -/

namespace Store

/-- What becomes of a store whose other end had an event. -/
def hear (s : Store) : Event → Store
  | .added value .local | .changed value .local =>
    if value.kind = .unset ∨ ((s.kind? value.id).map Kind.isStructural).getD false = true then s
    else (s.setValue value .remote).store
  | .keyAdded container key .local => (s.addKey container key .remote).store
  | .keyRemoved container key .local => (s.removeKey container key .remote).store
  | .removed id token _ => (s.removeWithToken id token .remote).store
  | .added _ .remote | .changed _ .remote | .keyAdded _ _ .remote | .keyRemoved _ _ .remote => s

end Store

namespace Mirror

variable {r : Mirror}

/-- Takes over a change of its store. -/
def accept {α : Type} (r : Mirror) (outcome : Outcome α) : Mirror :=
  { r with quiet := (r.quiet.accept outcome).2 }

theorem handle_set (hr : r.filter.roots = []) (value : Value) :
    ((Receiver.handle (.valueChanged [.set value]) : StateM Mirror Unit).run r).2 =
      if ((r.quiet.store.kind? value.id).map Kind.isStructural).getD false then r
      else r.accept (r.quiet.store.setValue value .remote) := by
  have hshown : r.filter.hides r.quiet.store value.id = false := by
    simp [Filter.hides, hr]
  have happly : (Receiver.applyValue value : StateM Mirror Bool) r =
      (if r.filter.hides r.quiet.store value.id then pure false
      else if ((r.quiet.store.kind? value.id).map Kind.isStructural).getD false then pure true
      else do pure (Receiver.went (← Host.setValue value .remote)) : StateM Mirror Bool) r := rfl
  change ((Receiver.applyValue value : StateM Mirror Bool) r).2 = _
  rw [happly, hshown]
  split
  · contradiction
  · split <;> rfl

/-- Carrying out the message of an event is hearing of the event. -/
theorem receive_message (hr : r.filter.roots = []) (event : Event) :
    (r.receive event.message?.toList).filter = r.filter ∧
      (r.receive event.message?.toList).quiet.store = r.quiet.store.hear event := by
  have hvalue (value : Value) :
      let told := (Update.ofValue? value).map fun update => Message.valueChanged [update]
      (r.receive told.toList).filter = r.filter ∧
        (r.receive told.toList).quiet.store = r.quiet.store.hear (.added value .local) := by
    unfold Update.ofValue? Store.hear
    by_cases hunset : value.kind = .unset
    · simp [hunset, receive]
    · rw [if_neg hunset]
      have : r.receive [.valueChanged [.set value]] = _ := handle_set hr value
      simp only [Option.map_some, Option.toList_some, this, hunset, false_or]
      split <;> exact ⟨rfl, rfl⟩
  cases event with
  | added value origin | changed value origin =>
    cases origin with
    | «local» => exact hvalue value
    | remote => exact ⟨rfl, rfl⟩
  | keyAdded container key origin | keyRemoved container key origin =>
    cases origin <;> exact ⟨rfl, rfl⟩
  | removed id token origin => exact ⟨rfl, rfl⟩

/-- Messages that tell of events are heard one after the other. -/
theorem receive_messages (hr : r.filter.roots = []) (events : List Event) :
    (r.receive (events.filterMap Event.message?)).quiet.store =
      events.foldl Store.hear r.quiet.store := by
  induction events generalizing r with
  | nil => rfl
  | cons event rest ih =>
    obtain ⟨hfilter, hstore⟩ := receive_message hr event
    have hcons : r.receive ((event :: rest).filterMap Event.message?) =
        (r.receive event.message?.toList).receive (rest.filterMap Event.message?) := by
      rw [List.filterMap_cons]
      cases event.message? <;> rfl
    rw [hcons, ih (by rw [hfilter, hr]), hstore, List.foldl_cons]

end Mirror

/-! ## Hearing of single events -/

/-- Every value that the template gives can be taken on as it is. -/
def Schema.Plain (schema : Schema) : Prop :=
  ∀ entry ∈ schema.template, entry.payload ≠ .unset ∧ entry.payload.Legal

instance (schema : Schema) : Decidable schema.Plain :=
  inferInstanceAs
    (Decidable (∀ entry ∈ schema.template, entry.payload ≠ .unset ∧ entry.payload.Legal))

namespace Store

variable {s t : Store} {id : Id} {value : Value} {node : Node} {payload : Payload}
  {access : Access}

theorem kind_ne_unset (h : payload ≠ .unset) : payload.kind ≠ .unset := by
  cases payload <;> simp_all [Payload.kind]

theorem hear_added (h : s.Agrees t) (hnew : s.has value.id = false) (hset : value.kind ≠ .unset)
    (hkept : Payload.unset.assign value.payload = .ok (.success, value.payload)) :
    (s.add value).Agrees (t.hear (.added value .local)) := by
  have hnone : t.node? value.id = none := h.node?_eq_none (has_eq_false.mp hnew)
  have hkind : t.kind? value.id = none := by simp [kind?, get?, hnone]
  have hheard : t.hear (.added value .local) = t.add value := by
    simp [hear, hset, hkind, setValue, write, hnone, create, hkept]
  rw [hheard]
  exact h.add rfl rfl

theorem hear_changed (h : s.Agrees t) (hnode : s.node? value.id = some node)
    (hset : value.kind ≠ .unset)
    (hkept : node.value.payload.assign value.payload = .ok (.success, value.payload)) :
    (s.put value.id { node with value }).Agrees (t.hear (.changed value .local)) := by
  obtain ⟨other, hother, hcontent⟩ := h.node? hnode
  have hpayload : other.value.payload = node.value.payload := congrArg Content.payload hcontent
  have hkeys : other.keys = node.keys := congrArg Content.keys hcontent
  have hkind : t.kind? value.id = some node.value.kind := by
    simp [kind?, get?, hother, Value.kind, hpayload]
  cases hstructural : node.value.kind.isStructural with
  | true =>
    -- The other end leaves its node alone, and here nothing was written.
    have hheard : t.hear (.changed value .local) = t := by
      simp [hear, hkind, hstructural]
    have hsame : value.payload = node.value.payload := Payload.eq_of_isStructural hstructural hkept
    rw [hheard]
    apply h.put_left hnode
    simp [Node.content, hsame]
  | false =>
    have hheard : t.hear (.changed value .local) =
        t.put value.id { other with value := { other.value with payload := value.payload } } := by
      simp [hear, hset, hkind, hstructural, setValue, write, hother, assignAt, Value.assign,
        hpayload, hkept, Except.map]
    rw [hheard]
    apply h.put
    simp [Node.content, hkeys]

/-! ## Writing -/

theorem hear_create (h : s.Agrees t) (hnew : s.node? id = none) (hset : payload ≠ .unset) :
    (s.create id payload access .local).store.Agrees
      ((s.create id payload access .local).events.foldl hear t) := by
  unfold create
  split
  · exact h
  · rename_i status result hassign
    have hkept := (Payload.settled_assign hassign).again (Payload.success_of_unset hset hassign)
    have hkind : result.kind ≠ .unset := (Payload.kind_of_assign hassign).1 ▸ kind_ne_unset hset
    exact hear_added h (has_eq_false.mpr hnew) hkind hkept

theorem hear_assignAt (h : s.Agrees t) (hs : s.WellFormed) (hnode : s.node? id = some node)
    (hset : payload ≠ .unset) :
    (s.assignAt id node payload .local).store.Agrees
      ((s.assignAt id node payload .local).events.foldl hear t) := by
  unfold assignAt
  split
  · exact h
  · exact h
  · rename_i value hassign
    obtain ⟨result, hpayload, rfl⟩ := Value.assign_eq_ok.mp hassign
    have hkept := (Payload.settled_assign hpayload).again rfl
    have hkind : result.kind ≠ .unset := (Payload.kind_of_assign hpayload).1 ▸ kind_ne_unset hset
    have hid : node.value.id = id := hs.node_id hnode
    subst hid
    exact @hear_changed s t { node.value with payload := result } node h hnode hkind hkept

theorem hear_declare (h : s.Agrees t) (hs : s.WellFormed) (hset : payload ≠ .unset) :
    (s.declare id payload access).store.Agrees
      ((s.declare id payload access).events.foldl hear t) := by
  unfold declare
  split
  · exact hear_create h ‹_› hset
  · rename_i node hnode
    have hput : (s.put id { node with value := { node.value with access } }).WellFormed :=
      hs.put_value hnode (hs.node_id hnode) fun hkind => hkind
    exact hear_assignAt (h.put_left hnode rfl) hput (by rw [node?_put, if_pos rfl]) hset

theorem hear_write (h : s.Agrees t) (hs : s.WellFormed) (hset : payload ≠ .unset) :
    (s.write id payload access .local).store.Agrees
      ((s.write id payload access .local).events.foldl hear t) := by
  unfold write
  split
  · exact hear_create h ‹_› hset
  · split
    · exact h
    · exact hear_assignAt h hs ‹_› hset

/-! ## Removing -/

theorem foldl_hear_removed (ids : List Id) :
    (ids.map fun id => Event.removed id id.token .local).foldl hear t = t.removeEach ids := by
  induction ids generalizing t with
  | nil => rfl
  | cons id rest ih =>
    have hheard : t.hear (.removed id id.token .local) = (t.remove id .remote).store := by
      simp [hear, removeWithToken]
    rw [List.map_cons, List.foldl_cons, hheard, ih]
    rfl

/-- The other end hears of each id that is gone by itself, deepest first. -/
theorem hear_remove (h : s.Agrees t) (hs : s.WellFormed) (ht : t.WellFormed) (id : Id) :
    (s.remove id .local).store.Agrees ((s.remove id .local).events.foldl hear t) := by
  cases hhas : s.has id with
  | false => simpa [remove, hhas, unchanged] using h
  | true =>
    have hdoomed {r : Id} :
        r ∈ (s.subtree id).reverse ↔ s.has r = true ∧ r.startsWith id = true := by
      rw [List.mem_reverse, hs.indexed.mem_subtree_iff]
    have hthere : ∀ r ∈ (s.subtree id).reverse,
        t.has r = true ∨ ∀ x, x.startsWith r = true → t.has x = false := by
      intro r hr
      left
      rw [← h.has_eq]
      exact (hdoomed.mp hr).1
    rw [hs.indexed.events_remove hhas, foldl_hear_removed]
    intro x
    rw [content?_remove hs .local (Or.inl hhas), content?_removeEach ht hthere, h x]
    by_cases hx : x.startsWith id = true
    · rw [if_pos hx, if_pos ⟨id, hdoomed.mpr ⟨hhas, Id.startsWith_self id⟩, hx⟩]
    · have hout : ¬∃ r ∈ (s.subtree id).reverse, x.startsWith r = true := by
        rintro ⟨r, hr, hxr⟩
        exact hx (Id.startsWith_trans hxr (hdoomed.mp hr).2)
      -- Of what stays only the parent had a key for something that goes: for the id itself.
      have hkey (key : String) : x.child key = id ↔ x.child key ∈ (s.subtree id).reverse := by
        constructor
        · intro he
          exact hdoomed.mpr ⟨he ▸ hhas, he ▸ Id.startsWith_self id⟩
        · intro hin
          exact (Id.child_startsWith_iff.mp (hdoomed.mp hin).2).resolve_right hx
      rw [if_neg hx, if_neg hout]
      simp only [ne_eq, hkey]

/-! ## Containers -/

theorem hear_fill (h : s.Agrees t) {values : List Value}
    (hvalues : ∀ value ∈ values, value.kind ≠ .unset ∧ value.payload.Legal) :
    (s.fill .local values).1.Agrees ((s.fill .local values).2.foldl hear t) := by
  induction values generalizing s t with
  | nil => exact h
  | cons value rest ih =>
    obtain ⟨hset, hlegal⟩ := hvalues value List.mem_cons_self
    have hrest (v : Value) (hv : v ∈ rest) := hvalues v (List.mem_cons_of_mem _ hv)
    cases hhas : s.has value.id with
    | true =>
      rw [fill_cons_old hhas]
      exact ih h hrest
    | false =>
      rw [fill_cons_new hhas]
      exact ih (hear_added h hhas hset (hlegal.assign_unset hset)) hrest

/-- The root of the instance comes into being at the other end with the key. What is said of it
afterwards is no news. -/
theorem hear_fill_instance (h : s.Agrees t) {root : Id} {rest : List Value}
    (hrest : ∀ value ∈ rest, value.kind ≠ .unset ∧ value.payload.Legal) :
    (s.fill .local ({ id := root, payload := .struct } :: rest)).1.Agrees
      ((s.fill .local ({ id := root, payload := .struct } :: rest)).2.foldl hear
        (t.fill .remote [{ id := root, payload := .struct }]).1) := by
  cases hhas : s.has root with
  | true =>
    rw [fill_cons_old hhas, fill_cons_old (h.has_eq ▸ hhas)]
    exact hear_fill h hrest
  | false =>
    have hheard : (t.add { id := root, payload := .struct }).hear
        (.added { id := root, payload := .struct } .local) =
          t.add { id := root, payload := .struct } := by
      simp [hear, kind?_add_self { id := root, payload := .struct }, Value.kind, Payload.kind,
        Kind.isStructural]
    rw [fill_cons_new hhas, fill_cons_new (h.has_eq ▸ hhas)]
    simp only [List.foldl_cons, fill, hheard]
    exact hear_fill (h.add rfl rfl) hrest

theorem hear_addKey (h : s.Agrees t) {container : Id} {key : String}
    (hschema : ∀ schema, s.schema? container = some schema → schema.Plain)
    (hnone : t.schema? container = none) :
    (s.addKey container key .local).store.Agrees
      ((s.addKey container key .local).events.foldl hear t) := by
  unfold addKey
  cases hjoin : container.join key with
  | error fault => exact h
  | ok root =>
    cases hnode : s.node? container with
    | none => exact h
    | some node =>
      obtain ⟨other, hother, hcontent⟩ := h.node? hnode
      have hkind : other.value.kind = node.value.kind :=
        congrArg (fun c => c.payload.kind) hcontent
      have hkeys : other.keys = node.keys := congrArg Content.keys hcontent
      simp only [addKeyAt]
      split
      · exact h
      · rename_i hcontainer
        split
        · exact h
        · rename_i hnew
          have hheard : t.hear (.keyAdded container key .local) =
              ((t.put container { other with keys := other.keys ++ [key] }).fill .remote
                [{ id := root, payload := .struct }]).1 := by
            simp only [hear, addKey, hjoin, hother, addKeyAt, hkind, hkeys, if_neg hcontainer,
              if_neg hnew, instanceValues, hnone]
            rfl
          rw [List.foldl_cons, hheard]
          apply hear_fill_instance
          · apply h.put
            simpa [Node.content] using ⟨congrArg Content.payload hcontent.symm, hkeys.symm⟩
          · intro value hvalue
            cases hfound : s.schema? container with
            | none => simp [hfound] at hvalue
            | some schema =>
              simp only [hfound, Option.map_some, Option.getD_some, Schema.instantiate] at hvalue
              obtain ⟨entry, hentry, rfl⟩ := List.mem_map.mp hvalue
              obtain ⟨hset, hlegal⟩ := hschema schema hfound entry hentry
              exact ⟨kind_ne_unset hset, hlegal⟩

theorem hear_removeKey (h : s.Agrees t) (hs : s.WellFormed) (ht : t.WellFormed) (container : Id)
    (key : String) :
    (s.removeKey container key .local).store.Agrees
      ((s.removeKey container key .local).events.foldl hear t) := by
  unfold removeKey
  cases hjoin : container.join key with
  | error fault => exact h
  | ok root =>
    cases hnode : s.node? container with
    | none => exact h
    | some node =>
      obtain ⟨other, hother, hcontent⟩ := h.node? hnode
      have hkind : other.value.kind = node.value.kind :=
        congrArg (fun c => c.payload.kind) hcontent
      have hkeys : other.keys = node.keys := congrArg Content.keys hcontent
      have hsubtree : t.subtree root = s.subtree root := by
        rw [subtree, subtree, h.index_eq hs ht]
      simp only [removeKeyAt]
      split
      · exact h
      · rename_i hcontainer
        split
        · exact h
        · rename_i hthere
          have hheard : t.hear (.keyRemoved container key .local) =
              (t.put container { other with keys := other.keys.erase key }).eraseAll
                (t.subtree root) := by
            simp only [hear, removeKey, hjoin, hother, removeKeyAt, hkind, hkeys,
              if_neg hcontainer, if_neg hthere]
          rw [List.foldl_cons, List.foldl_nil, hheard, hsubtree]
          apply Agrees.eraseAll
          apply h.put
          simpa [Node.content, hkeys] using congrArg Content.payload hcontent.symm

end Store

/-! ## Changes in step -/

/-- A change of this process that sets no value to unset. -/
def Change.Plain : Change → Prop
  | .set _ payload origin => origin = .local ∧ payload ≠ .unset
  | .setValue value origin => origin = .local ∧ value.payload ≠ .unset
  | .declare _ payload _ => payload ≠ .unset
  | .remove _ origin | .removeWithToken _ _ origin => origin = .local
  | .declareContainer schema => schema.Plain
  | .dropSchema _ => True
  | .addKey _ _ origin | .removeKey _ _ origin => origin = .local

instance : DecidablePred Change.Plain
  | .set _ _ _ | .setValue _ _ => inferInstanceAs (Decidable (_ ∧ _))
  | .declare _ _ _ => inferInstanceAs (Decidable (_ ≠ _))
  | .remove _ _ | .removeWithToken _ _ _ => inferInstanceAs (Decidable (_ = _))
  | .declareContainer schema => inferInstanceAs (Decidable schema.Plain)
  | .dropSchema _ => inferInstanceAs (Decidable True)
  | .addKey _ _ _ | .removeKey _ _ _ => inferInstanceAs (Decidable (_ = _))

/-- A store and the one that has heard of all its events. -/
structure InStep (s t : Store) : Prop where
  wellFormed : s.WellFormed
  heard : t.WellFormed
  agrees : s.Agrees t
  plain {id : Id} {schema : Schema} : s.schema? id = some schema → schema.Plain
  /-- The other end is told of containers, but not of their schemas. -/
  schemaless (id : Id) : t.schema? id = none

namespace InStep

variable {s t : Store}

theorem wellFormed_hear (ht : t.WellFormed) (event : Event) : (t.hear event).WellFormed := by
  unfold Store.hear
  split
  · split
    · exact ht
    · exact ht.write ..
  · split
    · exact ht
    · exact ht.write ..
  · exact ht.addKey ..
  · exact ht.removeKey ..
  · exact ht.removeWithToken ..
  all_goals exact ht

theorem schema?_of_hear {event : Event} {id : Id} {schema : Schema}
    (h : (t.hear event).schema? id = some schema) : t.schema? id = some schema := by
  unfold Store.hear at h
  split at h
  · split at h
    · exact h
    · rwa [Store.setValue, Store.schema?_write] at h
  · split at h
    · exact h
    · rwa [Store.setValue, Store.schema?_write] at h
  · rwa [Store.schema?_addKey] at h
  · exact Store.schema?_of_removeKey h
  · exact Store.schema?_of_removeWithToken h
  all_goals exact h

theorem accept {α : Type} (h : InStep s t) {outcome : Outcome α}
    (hs : outcome.store.WellFormed)
    (hagrees : outcome.store.Agrees (outcome.events.foldl Store.hear t))
    (hschema : ∀ {id schema}, outcome.store.schema? id = some schema →
      s.schema? id = some schema) :
    InStep outcome.store (outcome.events.foldl Store.hear t) := by
  have hheard (events : List Event) (t : Store) (ht : t.WellFormed)
      (hnone : ∀ id, t.schema? id = none) :
      (events.foldl Store.hear t).WellFormed ∧
        ∀ id, (events.foldl Store.hear t).schema? id = none := by
    induction events generalizing t with
    | nil => exact ⟨ht, hnone⟩
    | cons event rest ih =>
      apply ih _ (wellFormed_hear ht event)
      intro id
      rw [Option.eq_none_iff_forall_ne_some]
      intro schema hsome
      simpa [hnone] using schema?_of_hear hsome
  obtain ⟨ht, hnone⟩ := hheard outcome.events t h.heard h.schemaless
  exact ⟨hs, ht, hagrees, fun hfound => h.plain (hschema hfound), hnone⟩

theorem putSchema (h : InStep s t) {schema : Schema} (hplain : schema.Plain)
    (hkind : s.kind? schema.id = some .container) : InStep (s.putSchema schema) t where
  wellFormed := h.wellFormed.putSchema hkind
  heard := h.heard
  agrees := h.agrees
  plain {id found} hfound := by
    rw [Store.schema?_putSchema] at hfound
    split at hfound
    · cases hfound
      exact hplain
    · exact h.plain hfound
  schemaless := h.schemaless

theorem dropSchema (h : InStep s t) (id : Id) : InStep (s.dropSchema id) t where
  wellFormed := h.wellFormed.dropSchema id
  heard := h.heard
  agrees := h.agrees
  plain {id found} hfound := by
    rw [Store.schema?_dropSchema] at hfound
    split at hfound
    · simp at hfound
    · exact h.plain hfound
  schemaless := h.schemaless

/-- Both stores take a change the same way, the second one by hearsay. -/
theorem step {q : Quiet} (h : InStep q.store t) {change : Change} (hplain : change.Plain) :
    ∃ events, (q.step change).2.events = q.events ++ events ∧
      InStep (q.step change).2.store (events.foldl Store.hear t) := by
  have ⟨hs, ht, hagrees, hschemas, hnone⟩ := h
  cases change with
  | set id payload origin =>
    obtain ⟨rfl, hset⟩ := hplain
    exact ⟨_, rfl, h.accept (hs.write ..) (Store.hear_write hagrees hs hset)
      Store.schema?_write.symm.trans⟩
  | setValue value origin =>
    obtain ⟨rfl, hset⟩ := hplain
    exact ⟨_, rfl, h.accept (hs.write ..) (Store.hear_write hagrees hs hset)
      Store.schema?_write.symm.trans⟩
  | declare id payload access =>
    exact ⟨_, rfl, h.accept (hs.declare ..) (Store.hear_declare hagrees hs hplain)
      Store.schema?_declare.symm.trans⟩
  | remove id origin =>
    obtain rfl : origin = .local := hplain
    exact ⟨_, rfl, h.accept (hs.remove ..) (Store.hear_remove hagrees hs ht id)
      Store.schema?_of_remove⟩
  | removeWithToken id token origin =>
    obtain rfl : origin = .local := hplain
    refine ⟨_, rfl, h.accept (hs.removeWithToken ..) ?_ Store.schema?_of_removeWithToken⟩
    unfold Store.removeWithToken
    split
    · exact Store.hear_remove hagrees hs ht id
    · exact hagrees
  | declareContainer schema =>
    rw [Quiet.step_declareContainer]
    split
    · exact ⟨[], (List.append_nil _).symm, h⟩
    · have hset : Payload.container schema.order ≠ .unset := by simp
      have hdeclared := h.accept (hs.declare schema.id _ .readWrite)
        (Store.hear_declare hagrees hs hset) Store.schema?_declare.symm.trans
      refine ⟨(q.store.declare schema.id (.container schema.order) .readWrite).events, ?_⟩
      dsimp only
      split
      · exact ⟨rfl, hdeclared⟩
      · exact ⟨rfl, hdeclared.putSchema hplain (Store.kind?_declare ‹_›)⟩
  | dropSchema id =>
    exact ⟨[], rfl, h.dropSchema id⟩
  | addKey container key origin =>
    obtain rfl : origin = .local := hplain
    exact ⟨_, rfl, h.accept (hs.addKey ..) (Store.hear_addKey hagrees (fun _ => hschemas) (hnone _))
      Store.schema?_addKey.symm.trans⟩
  | removeKey container key origin =>
    obtain rfl : origin = .local := hplain
    exact ⟨_, rfl, h.accept (hs.removeKey ..) (Store.hear_removeKey hagrees hs ht container key)
      Store.schema?_of_removeKey⟩

end InStep

/-- Changes one after the other, from stores in step. -/
theorem InStep.after {q : Quiet} {t : Store} (h : InStep q.store t) {changes : List Change}
    (hplain : ∀ change ∈ changes, change.Plain) :
    ∃ events, (q.after changes).events = q.events ++ events ∧
      InStep (q.after changes).store (events.foldl Store.hear t) := by
  induction changes generalizing q t with
  | nil => exact ⟨[], (List.append_nil _).symm, h⟩
  | cons change rest ih =>
    obtain ⟨events, hevents, hstep⟩ := h.step (hplain change List.mem_cons_self)
    obtain ⟨more, hmore, hafter⟩ := ih hstep fun c hc => hplain c (List.mem_cons_of_mem _ hc)
    refine ⟨events ++ more, ?_, ?_⟩
    · rw [← List.append_assoc, ← hevents, ← hmore]
      rfl
    · rw [List.foldl_append]
      exact hafter

theorem inStep_empty : InStep {} {} where
  wellFormed := Store.wellFormed_empty
  heard := Store.wellFormed_empty
  agrees _ := rfl
  plain h := by simp at h
  schemaless id := Store.schema?_empty

/-- After any plain changes the mirror has the same ids with the same payloads, and every container
has the same keys. -/
theorem Mirror.agrees_after {changes : List Change} (hplain : ∀ change ∈ changes, change.Plain)
    (app : String) :
    let own := Quiet.after {} changes
    let mirror := ({ filter := { app } } : Mirror).receive (own.events.filterMap Event.message?)
    mirror.quiet.store.ids = own.store.ids ∧
      ∀ id, (mirror.quiet.store.get? id).map (·.payload) = (own.store.get? id).map (·.payload) ∧
        mirror.quiet.store.keys id = own.store.keys id := by
  intro own mirror
  have hstart : InStep (Quiet.store {}) {} := inStep_empty
  obtain ⟨events, hevents, h⟩ := hstart.after hplain
  have hmirror : mirror.quiet.store = own.events.foldl Store.hear {} :=
    receive_messages rfl own.events
  have howned : own.events = events := hevents
  rw [hmirror, howned]
  exact ⟨(h.agrees.ids_eq h.wellFormed h.heard).symm,
    fun id => ⟨h.agrees.payload_eq.symm, h.agrees.keys_eq.symm⟩⟩

/-- Two instances of a template: one is written to, the other one is removed by its root. -/
theorem agrees_after_instances :
    let changes : List Change := [
      .declareContainer
        ⟨⟨["log"]⟩, .unordered, [⟨⟨["log", "+", "level"]⟩, .set ["a", "b"], .readOnly⟩]⟩,
      .addKey ⟨["log"]⟩ "y" .local,
      .addKey ⟨["log"]⟩ "x" .local,
      .set ⟨["log", "x", "text"]⟩ (.text "t") .local,
      .declare ⟨["log", "x", "level"]⟩ (.set ["c", "b", "c"]) .readWrite,
      .remove ⟨["log", "y"]⟩ .local]
    let own := Quiet.after {} changes
    let mirror := ({ filter := { app := "app" } } : Mirror).receive
      (own.events.filterMap Event.message?)
    (∀ change ∈ changes, change.Plain) ∧
      mirror.quiet.store.ids =
        [⟨["log"]⟩, ⟨["log", "x"]⟩, ⟨["log", "x", "level"]⟩, ⟨["log", "x", "text"]⟩] ∧
      (mirror.quiet.store.get? ⟨["log", "x", "level"]⟩).map (·.payload) = some (.set ["b", "c"]) ∧
      (mirror.quiet.store.keys ⟨["log"]⟩).toOption = some ["x"] := by
  intro changes own mirror
  have hplain : ∀ change ∈ changes, change.Plain := by decide +kernel
  obtain ⟨hids, hcontents⟩ := Mirror.agrees_after hplain "app"
  refine ⟨hplain, hids.trans ?_, (hcontents _).1.trans ?_,
    (congrArg Except.toOption (hcontents _).2).trans ?_⟩
  · decide +kernel
  · decide +kernel
  · decide +kernel

end ValueTree
