import ValueTree.Proofs.Payload.Assign
import ValueTree.Proofs.Store.Contents
import ValueTree.Store.Host

/-!
# Well-formed stores

The parts of a store fit together: the index lists the nodes, a key has its instance, and a schema
has its container. Every change keeps it that way.
-/

namespace ValueTree

namespace Store

structure WellFormed (s : Store) : Prop where
  /-- The index has the ids of the nodes and no others. -/
  index_iff (id : Id) : id ∈ s.index ↔ s.has id = true
  /-- A node stands under its own id. -/
  node_id {id : Id} {node : Node} : s.node? id = some node → node.id = id
  keys_nodup {id : Id} {node : Node} : s.node? id = some node → node.keys.Nodup
  /-- Only containers have keys. -/
  keys_kind {id : Id} {node : Node} :
    s.node? id = some node → node.keys ≠ [] → node.value.kind = .container
  /-- Every key has the root of its instance. -/
  keys_have {id : Id} {node : Node} {key : String} :
    s.node? id = some node → key ∈ node.keys → s.has (id.child key) = true
  /-- A schema stands under the id of its container, and there is such a container. -/
  schema_place {id : Id} {schema : Schema} :
    s.schema? id = some schema → schema.id = id ∧ s.kind? id = some .container

variable {s : Store} {id : Id} {node node' : Node} {value : Value}

theorem wellFormed_empty : ({} : Store).WellFormed where
  index_iff id := by simp [has]
  node_id h := by simp at h
  keys_nodup h := by simp at h
  keys_kind h := by simp at h
  keys_have h := by simp at h
  schema_place h := by simp at h

namespace WellFormed

/-! ## Single steps -/

theorem put (h : s.WellFormed) (hnode : s.node? id = some node) (hid : node'.id = id)
    (hkind : node.value.kind = .container → node'.value.kind = .container)
    (hnodup : node'.keys.Nodup) (hkeys : node'.keys ≠ [] → node'.value.kind = .container)
    (hhave : ∀ key ∈ node'.keys, s.has (id.child key) = true) : (s.put id node').WellFormed := by
  have hhas (x : Id) : (s.put id node').has x = s.has x := has_put hnode
  have hcase {x : Id} {n : Node} (hx : (s.put id node').node? x = some n) :
      id = x ∧ node' = n ∨ s.node? x = some n := by
    rw [node?_put] at hx
    split at hx
    · exact Or.inl ⟨‹_›, Option.some.inj hx⟩
    · exact Or.inr hx
  constructor
  · intro x
    rw [index_put, hhas, h.index_iff]
  · intro x n hx
    rcases hcase hx with ⟨rfl, rfl⟩ | hx
    · exact hid
    · exact h.node_id hx
  · intro x n hx
    rcases hcase hx with ⟨rfl, rfl⟩ | hx
    · exact hnodup
    · exact h.keys_nodup hx
  · intro x n hx
    rcases hcase hx with ⟨rfl, rfl⟩ | hx
    · exact hkeys
    · exact h.keys_kind hx
  · intro x n key hx hkey
    rw [hhas]
    rcases hcase hx with ⟨rfl, rfl⟩ | hx
    · exact hhave key hkey
    · exact h.keys_have hx hkey
  · intro x schema hx
    obtain ⟨hschema, hcontainer⟩ := h.schema_place hx
    refine ⟨hschema, kind?_eq_some.mpr ?_⟩
    obtain ⟨n, hn, hk⟩ := kind?_eq_some.mp hcontainer
    rw [node?_put]
    split
    · rename_i hx
      rw [← hx, hnode] at hn
      cases hn
      exact ⟨node', rfl, hkind hk⟩
    · exact ⟨n, hn, hk⟩

/-- The same node with another value, which is a container if the old one was. -/
theorem put_value (h : s.WellFormed) (hnode : s.node? id = some node) (hid : value.id = id)
    (hkind : node.value.kind = .container → value.kind = .container) :
    (s.put id { node with value }).WellFormed := by
  have hnodup := h.keys_nodup hnode
  have hkeys (hkeys : node.keys ≠ []) : value.kind = .container := hkind (h.keys_kind hnode hkeys)
  have hhave (key : String) (hkey : key ∈ node.keys) : s.has (id.child key) = true :=
    h.keys_have hnode hkey
  exact h.put hnode hid hkind hnodup hkeys hhave

theorem add (h : s.WellFormed) (hnew : s.has value.id = false) : (s.add value).WellFormed := by
  have hcase {x : Id} {n : Node} (hx : (s.add value).node? x = some n) :
      value.id = x ∧ { value } = n ∨ s.node? x = some n := by
    rw [node?_add] at hx
    split at hx
    · exact Or.inl ⟨‹_›, Option.some.inj hx⟩
    · exact Or.inr hx
  have hhas {x : Id} (hx : s.has x = true) : (s.add value).has x = true := by
    rw [has, node?_add]
    split
    · rfl
    · exact hx
  constructor
  · intro x
    rw [mem_index_add, h.index_iff, has, has, node?_add]
    split <;> simp [*]
  · intro x n hx
    rcases hcase hx with ⟨rfl, rfl⟩ | hx
    · rfl
    · exact h.node_id hx
  · intro x n hx
    rcases hcase hx with ⟨rfl, rfl⟩ | hx
    · exact List.nodup_nil
    · exact h.keys_nodup hx
  · intro x n hx
    rcases hcase hx with ⟨rfl, rfl⟩ | hx
    · exact fun hkeys => absurd rfl hkeys
    · exact h.keys_kind hx
  · intro x n key hx hkey
    rcases hcase hx with ⟨rfl, rfl⟩ | hx
    · exact absurd hkey List.not_mem_nil
    · exact hhas (h.keys_have hx hkey)
  · intro x schema hx
    obtain ⟨hschema, hcontainer⟩ := h.schema_place hx
    refine ⟨hschema, kind?_eq_some.mpr ?_⟩
    obtain ⟨n, hn, hk⟩ := kind?_eq_some.mp hcontainer
    refine ⟨n, ?_, hk⟩
    rw [node?_add, if_neg, hn]
    rintro rfl
    simp [has, hn] at hnew

theorem putSchema (h : s.WellFormed) {schema : Schema}
    (hkind : s.kind? schema.id = some .container) : (s.putSchema schema).WellFormed where
  index_iff := h.index_iff
  node_id := h.node_id
  keys_nodup := h.keys_nodup
  keys_kind := h.keys_kind
  keys_have := h.keys_have
  schema_place {x found} hx := by
    rw [schema?_putSchema] at hx
    split at hx
    · subst_vars
      cases hx
      exact ⟨rfl, hkind⟩
    · exact h.schema_place hx

theorem dropSchema (h : s.WellFormed) (id : Id) : (s.dropSchema id).WellFormed where
  index_iff := h.index_iff
  node_id := h.node_id
  keys_nodup := h.keys_nodup
  keys_kind := h.keys_kind
  keys_have := h.keys_have
  schema_place {x found} hx := by
    rw [schema?_dropSchema] at hx
    split at hx
    · simp at hx
    · exact h.schema_place hx

/-- Ids may go if no other id has a key whose instance goes with them. -/
theorem eraseAll (h : s.WellFormed) {ids : List Id}
    (hkeys : ∀ {x node key}, s.node? x = some node → key ∈ node.keys → x.child key ∈ ids →
      x ∈ ids) : (s.eraseAll ids).WellFormed := by
  have hnode {x : Id} {n : Node} :
      (s.eraseAll ids).node? x = some n ↔ x ∉ ids ∧ s.node? x = some n := by
    rw [node?_eraseAll]
    split <;> simp [*]
  have hhas (x : Id) : (s.eraseAll ids).has x = true ↔ x ∉ ids ∧ s.has x = true := by
    rw [has, has, node?_eraseAll]
    split <;> simp [*]
  constructor
  · intro x
    rw [mem_index_eraseAll, hhas, h.index_iff]
  · intro x n hx
    exact h.node_id (hnode.mp hx).2
  · intro x n hx
    exact h.keys_nodup (hnode.mp hx).2
  · intro x n hx
    exact h.keys_kind (hnode.mp hx).2
  · intro x n key hx hkey
    obtain ⟨hout, hx⟩ := hnode.mp hx
    exact (hhas _).mpr ⟨fun hin => hout (hkeys hx hkey hin), h.keys_have hx hkey⟩
  · intro x schema hx
    rw [schema?_eraseAll] at hx
    split at hx
    · simp at hx
    · rename_i hstays
      obtain ⟨hschema, hcontainer⟩ := h.schema_place hx
      obtain ⟨n, hn, hk⟩ := kind?_eq_some.mp hcontainer
      refine ⟨hschema, kind?_eq_some.mpr ⟨n, hnode.mpr ⟨fun hin => hstays ⟨hin, ?_⟩, hn⟩, hk⟩⟩
      exact has_eq_true.mpr ⟨n, hn⟩

/-! ## Writing -/

theorem create (h : s.WellFormed) (hnew : s.has id = false) (payload : Payload) (access : Access)
    (origin : Origin) : (s.create id payload access origin).store.WellFormed := by
  unfold Store.create
  split
  · exact h
  · exact h.add hnew

theorem assignAt (h : s.WellFormed) (hnode : s.node? id = some node) (payload : Payload)
    (origin : Origin) : (s.assignAt id node payload origin).store.WellFormed := by
  unfold Store.assignAt
  split
  · exact h
  · exact h
  · rename_i value hassign
    obtain ⟨result, hpayload, rfl⟩ := Value.assign_eq_ok.mp hassign
    refine h.put_value hnode (h.node_id hnode) fun hcontainer => ?_
    rcases (Payload.kind_of_assign hpayload).2 with hunset | hsame
    · exact absurd (hunset.symm.trans hcontainer) (by decide)
    · exact hsame.trans hcontainer

theorem declare (h : s.WellFormed) (id : Id) (payload : Payload) (access : Access) :
    (s.declare id payload access).store.WellFormed := by
  unfold Store.declare
  split
  · rename_i hnew
    exact h.create (has_eq_false.mpr hnew) ..
  · rename_i node hnode
    have hput : (s.put id { node with value := { node.value with access } }).WellFormed :=
      h.put_value hnode (h.node_id hnode) fun hkind => hkind
    exact hput.assignAt (by rw [node?_put, if_pos rfl]) ..

theorem write (h : s.WellFormed) (id : Id) (payload : Payload) (access : Access) (origin : Origin) :
    (s.write id payload access origin).store.WellFormed := by
  unfold Store.write
  split
  · rename_i hnew
    exact h.create (has_eq_false.mpr hnew) ..
  · split
    · exact h
    · exact h.assignAt ‹_› ..

/-! ## Removing -/

/-- What is erased together with everything below it leaves no key behind, if its parent has
forgotten it. -/
theorem eraseAll_below (h : s.WellFormed) {ids : List Id} {root : Id}
    (hids : ∀ x, x ∈ ids ↔ x ∈ s.index ∧ x.startsWith root = true)
    (hfree : ∀ {x node key}, s.node? x = some node → key ∈ node.keys → x.child key ≠ root) :
    (s.eraseAll ids).WellFormed := by
  apply h.eraseAll
  intro x node key hnode hkey hin
  refine (hids x).mpr ⟨(h.index_iff x).mpr (has_eq_true.mpr ⟨node, hnode⟩), ?_⟩
  exact (Id.child_startsWith_iff.mp ((hids _).mp hin).2).resolve_left (hfree hnode hkey)

/-- A key that is forgotten. -/
theorem put_keys (h : s.WellFormed) {keys : List String} (hnode : s.node? id = some node)
    (hsub : keys.Sublist node.keys) : (s.put id { node with keys }).WellFormed := by
  have hnodup := (h.keys_nodup hnode).sublist hsub
  have hid := h.node_id hnode
  have hkind (hkeys : keys ≠ []) : node.value.kind = .container :=
    h.keys_kind hnode fun hnil => hkeys (List.sublist_nil.mp (hnil ▸ hsub))
  have hhave (key : String) (hkey : key ∈ keys) : s.has (id.child key) = true :=
    h.keys_have hnode (hsub.subset hkey)
  exact h.put hnode hid (fun hkind => hkind) hnodup hkind hhave

theorem unlink (h : s.WellFormed) (id : Id) : (s.unlink id).WellFormed := by
  rcases id.root_or_child with rfl | ⟨p, key, rfl⟩
  · rwa [unlink_root]
  · simp only [Store.unlink, Id.parent?_child, Id.leaf?_child]
    split
    · exact h.put_keys ‹_› List.filter_sublist
    · exact h

theorem remove (h : s.WellFormed) (id : Id) (origin : Origin) :
    (s.remove id origin).store.WellFormed := by
  unfold Store.remove
  split
  · apply (h.unlink id).eraseAll_below
    · intro x
      rw [List.mem_reverse, mem_subtree, index_unlink]
    · rintro x node key hnode hkey rfl
      rw [node?_unlink_child, if_pos rfl] at hnode
      obtain ⟨old, -, rfl⟩ := Option.map_eq_some_iff.mp hnode
      simp [Node.forget] at hkey
  · exact h

theorem removeWithToken (h : s.WellFormed) (id : Id) (token : Token) (origin : Origin) :
    (s.removeWithToken id token origin).store.WellFormed := by
  unfold Store.removeWithToken
  split
  · exact h.remove id origin
  · exact h

/-! ## Containers -/

theorem fill (h : s.WellFormed) (origin : Origin) (values : List Value) :
    (s.fill origin values).1.WellFormed := by
  induction values generalizing s with
  | nil => exact h
  | cons value rest ih =>
    cases hhas : s.has value.id with
    | true =>
      rw [fill_cons_old hhas]
      exact ih h
    | false =>
      rw [fill_cons_new hhas]
      exact ih (h.add hhas)

/-- A new key, once its instance has a root. -/
theorem put_key (h : s.WellFormed) {key : String} (hnode : s.node? id = some node)
    (hkind : node.value.kind = .container) (hnew : key ∉ node.keys)
    (hroot : s.has (id.child key) = true) :
    (s.put id { node with keys := node.keys ++ [key] }).WellFormed := by
  have hid := h.node_id hnode
  have hnodup : (node.keys ++ [key]).Nodup := by
    refine List.nodup_append.mpr ⟨h.keys_nodup hnode, by simp, ?_⟩
    rintro a ha b hb rfl
    exact hnew (List.mem_singleton.mp hb ▸ ha)
  have hhave (k : String) (hk : k ∈ node.keys ++ [key]) : s.has (id.child k) = true := by
    rcases List.mem_append.mp hk with hk | hk
    · exact h.keys_have hnode hk
    · rwa [List.mem_singleton.mp hk]
  exact h.put hnode hid (fun hkind => hkind) hnodup (fun _ => hkind) hhave

theorem addKeyAt (h : s.WellFormed) {key : String} (hnode : s.node? id = some node)
    (origin : Origin) : (s.addKeyAt id node key (id.child key) origin).store.WellFormed := by
  unfold Store.addKeyAt
  split
  · exact h
  · rename_i hkind
    have hkind := Decidable.not_not.mp hkind
    split
    · exact h
    · rename_i hnew
      simp only [instanceValues]
      have hlinked (n : Node) : (s.put id n).has (id.child key) = s.has (id.child key) := by
        rw [has, node?_put, if_neg (Id.child_ne id key).symm, has]
      cases hroot : s.has (id.child key) with
      | true =>
        rw [fill_cons_old ((hlinked _).trans hroot)]
        exact (h.put_key hnode hkind hnew hroot).fill ..
      | false =>
        rw [fill_cons_new ((hlinked _).trans hroot)]
        -- The key is there before its instance; the other way round comes to the same.
        rw [add_put (Id.child_ne id key).symm]
        refine WellFormed.fill (put_key (h.add hroot) ?_ hkind hnew ?_) ..
        · rw [node?_add, if_neg (Id.child_ne id key), hnode]
        · simp [has, node?_add]

theorem addKey (h : s.WellFormed) (container : Id) (key : String) (origin : Origin) :
    (s.addKey container key origin).store.WellFormed := by
  unfold Store.addKey
  split
  · exact h
  · rename_i root hjoin
    obtain ⟨-, rfl⟩ := Id.join_eq_ok_iff.mp hjoin
    split
    · exact h.addKeyAt ‹_› _
    · exact h
    · rename_i hnone
      refine addKeyAt (h.add (has_eq_false.mpr hnone)) ?_ .remote
      rw [node?_add, if_pos rfl]

theorem removeKeyAt (h : s.WellFormed) {key : String} (hnode : s.node? id = some node)
    (origin : Origin) : (s.removeKeyAt id node key (id.child key) origin).store.WellFormed := by
  unfold Store.removeKeyAt
  split
  · exact h
  · split
    · exact h
    · refine (h.put_keys hnode List.erase_sublist).eraseAll_below (fun _ => mem_subtree) ?_
      intro x n k hx hk hroot
      obtain ⟨rfl, rfl⟩ := Id.child_inj.mp hroot
      rw [node?_put, if_pos rfl] at hx
      cases hx
      exact (h.keys_nodup hnode).not_mem_erase hk

theorem removeKey (h : s.WellFormed) (container : Id) (key : String) (origin : Origin) :
    (s.removeKey container key origin).store.WellFormed := by
  unfold Store.removeKey
  split
  · exact h
  · rename_i root hjoin
    obtain ⟨-, rfl⟩ := Id.join_eq_ok_iff.mp hjoin
    split
    · exact h
    · exact h.removeKeyAt ‹_› origin

end WellFormed

/-! ## Kinds after a declaration -/

theorem kind?_create {payload : Payload} {access : Access} {origin : Origin} {status : SetStatus}
    (h : (s.create id payload access origin).result = .ok status) :
    (s.create id payload access origin).store.kind? id = some payload.kind := by
  unfold create at h ⊢
  split at h
  · simp [failed] at h
  · rename_i result hassign
    exact (kind?_add_self _).trans (congrArg some (Payload.kind_of_assign hassign).1)

theorem kind?_assignAt {payload : Payload} {origin : Origin} {status : SetStatus}
    (hnode : s.node? id = some node)
    (h : (s.assignAt id node payload origin).result = .ok status) :
    (s.assignAt id node payload origin).store.kind? id = some payload.kind := by
  unfold assignAt at h ⊢
  split at h
  · simp [failed] at h
  · rename_i value hassign
    obtain ⟨result, hpayload, -⟩ := Value.assign_eq_ok.mp hassign
    rw [kind?_eq_some]
    refine ⟨node, hnode, ?_⟩
    rw [← (Payload.kind_of_assign hpayload).1, (Payload.settled_assign hpayload).same rfl]
    rfl
  · rename_i value hassign
    obtain ⟨result, hpayload, rfl⟩ := Value.assign_eq_ok.mp hassign
    exact (kind?_put_self _).trans (congrArg some (Payload.kind_of_assign hpayload).1)

/-- A declaration that is not refused leaves a value of the kind that it declares. -/
theorem kind?_declare {payload : Payload} {access : Access} {status : SetStatus}
    (h : (s.declare id payload access).result = .ok status) :
    (s.declare id payload access).store.kind? id = some payload.kind := by
  unfold declare at h ⊢
  split at h
  · exact kind?_create h
  · exact kind?_assignAt (by rw [node?_put, if_pos rfl]) h

end Store

/-! ## Runs -/

namespace Quiet

variable {q : Quiet}

theorem run_declareContainer (schema : Schema) :
    (Host.declareContainer schema : StateM Quiet (Except StoreError Unit)).run q =
      match schema.fault? with
      | some fault => (.error (.invalidId fault), q)
      | none =>
        let declared := q.store.declare schema.id (.container schema.order) .readWrite
        let events := q.events ++ declared.events
        match declared.result with
        | .error e => (.error e, ⟨declared.store, events⟩)
        | .ok _ => (.ok (), ⟨declared.store.putSchema schema, events⟩) := by
  simp only [Host.declareContainer, StateT.run]
  cases schema.fault? with
  | some fault => rfl
  | none =>
    cases h : (q.store.declare schema.id (.container schema.order) .readWrite).result with
    | error e =>
      simp only [Host.declare, Host.change, accept, bind, StateT.bind, h]
      rfl
    | ok status =>
      simp only [Host.declare, Host.change, accept, bind, StateT.bind, h]
      refine congrArg (fun events => (Except.ok (), Quiet.mk _ events)) ?_
      exact List.append_nil _

theorem step_declareContainer (schema : Schema) :
    q.step (.declareContainer schema) =
      match schema.fault? with
      | some fault => (.error (.invalidId fault), q)
      | none =>
        let declared := q.store.declare schema.id (.container schema.order) .readWrite
        let events := q.events ++ declared.events
        match declared.result with
        | .error e => (.error e, ⟨declared.store, events⟩)
        | .ok _ => (.ok .declared, ⟨declared.store.putSchema schema, events⟩) := by
  have hstep : q.step (.declareContainer schema) =
      let r := (Host.declareContainer schema : StateM Quiet (Except StoreError Unit)).run q
      (r.1.map fun _ => .declared, r.2) := rfl
  rw [hstep, run_declareContainer]
  cases schema.fault? with
  | some fault => rfl
  | none =>
    dsimp only
    cases (q.store.declare schema.id (.container schema.order) .readWrite).result <;> rfl

theorem wellFormed_step (h : q.store.WellFormed) (change : Change) :
    (q.step change).2.store.WellFormed := by
  cases change with
  | set id payload origin => exact h.write ..
  | setValue value origin => exact h.write ..
  | declare id payload access => exact h.declare ..
  | remove id origin => exact h.remove ..
  | removeWithToken id token origin => exact h.removeWithToken ..
  | declareContainer schema =>
    rw [step_declareContainer]
    split
    · exact h
    · dsimp only
      split
      · exact h.declare ..
      · exact (h.declare ..).putSchema (Store.kind?_declare ‹_›)
  | dropSchema id => exact h.dropSchema id
  | addKey container key origin => exact h.addKey ..
  | removeKey container key origin => exact h.removeKey ..

/-- What each change keeps, changes keep one after the other. -/
theorem after_keeps {P : Quiet → Prop} {changes : List Change}
    (hstep : ∀ change ∈ changes, ∀ q, P q → P (q.step change).2) (h : P q) :
    P (q.after changes) := by
  induction changes generalizing q with
  | nil => exact h
  | cons change rest ih =>
    exact ih (fun other hmem => hstep other (List.mem_cons_of_mem _ hmem))
      (hstep change List.mem_cons_self q h)

theorem wellFormed_run (h : q.store.WellFormed) (changes : List Change) :
    (q.after changes).store.WellFormed :=
  after_keeps (P := fun q => q.store.WellFormed) (fun change _ _ h => wellFormed_step h change) h

/-- Whatever is done to an empty store, its parts fit together afterwards. -/
theorem wellFormed_after (changes : List Change) :
    (Quiet.after {} changes).store.WellFormed :=
  wellFormed_run Store.wellFormed_empty changes

end Quiet

end ValueTree
