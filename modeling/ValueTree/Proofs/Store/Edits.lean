import Mathlib.Logic.Relation
import ValueTree.Proofs.Store.WellFormed

/-!
# Edits

A change is made of edits: of one node, one id or one schema at a time. What all edits keep is kept
by all changes, whoever acts between two of them.
-/

namespace ValueTree

namespace Store

/-- One change. A schema may come in at any time, for others may act between the declaration of a
container and its schema. -/
inductive Step (declared : List Schema) (s : Store) : Store → Prop
  | write (id : Id) (payload : Payload) (access : Access) (origin : Origin) :
    Step declared s (s.write id payload access origin).store
  | declare (id : Id) (payload : Payload) (access : Access) :
    Step declared s (s.declare id payload access).store
  | remove (id : Id) (origin : Origin) : Step declared s (s.remove id origin).store
  | removeWithToken (id : Id) (token : Token) (origin : Origin) :
    Step declared s (s.removeWithToken id token origin).store
  | addKey (container : Id) (key : String) (origin : Origin) :
    Step declared s (s.addKey container key origin).store
  | removeKey (container : Id) (key : String) (origin : Origin) :
    Step declared s (s.removeKey container key origin).store
  | putSchema {schema : Schema} : schema ∈ declared → Step declared s (s.putSchema schema)
  | dropSchema (id : Id) : Step declared s (s.dropSchema id)

inductive Edit (declared : List Schema) (s : Store) : Store → Prop
  /-- A new payload is legal. -/
  | revalue {id : Id} {node : Node} {value : Value} : s.node? id = some node →
    value.id = node.id → value.payload = node.value.payload ∨ value.payload.Legal →
      Edit declared s (s.put id { node with value })
  | rekey {id : Id} {node : Node} (keys : List String) : s.node? id = some node →
    Edit declared s (s.put id { node with keys })
  /-- A new value is legal, or out of a template. -/
  | add {value : Value} : s.has value.id = false →
    (value.payload.Legal ∨ ∃ container key schema, s.schema? container = some schema ∧
      value ∈ schema.instantiate key) → Edit declared s (s.add value)
  | erase (id : Id) : Edit declared s (s.erase id)
  | putSchema {schema : Schema} : schema ∈ declared → Edit declared s (s.putSchema schema)
  | dropSchema (id : Id) : Edit declared s (s.dropSchema id)

abbrev Edits (declared : List Schema) : Store → Store → Prop :=
  Relation.ReflTransGen (Edit declared)

section

variable {declared : List Schema} {s : Store} {id : Id} {node : Node} {payload : Payload}
  {access : Access} {origin : Origin} {key : String}

open Relation.ReflTransGen (refl single trans head)

/-! ## Writing -/

theorem edits_create (hnew : s.has id = false) :
    s.Edits declared (s.create id payload access origin).store := by
  unfold create
  split
  · exact refl
  · rename_i status result hassign
    refine single (.add hnew (Or.inl ?_))
    cases status with
    | success => exact Payload.legal_of_assign hassign
    | sameValue =>
      obtain rfl := (Payload.settled_assign hassign).same rfl
      exact ⟨rfl, rfl⟩

theorem edits_assignAt (hnode : s.node? id = some node) :
    s.Edits declared (s.assignAt id node payload origin).store := by
  unfold assignAt
  split
  · exact refl
  · exact refl
  · rename_i value hassign
    obtain ⟨result, hpayload, rfl⟩ := Value.assign_eq_ok.mp hassign
    exact single (.revalue hnode rfl (Or.inr (Payload.legal_of_assign hpayload)))

theorem edits_declare : s.Edits declared (s.declare id payload access).store := by
  unfold declare
  split
  · exact edits_create (has_eq_false.mpr ‹_›)
  · rename_i node hnode
    have haccess : s.Edit declared (s.put id { node with value := { node.value with access } }) :=
      .revalue hnode rfl (Or.inl rfl)
    exact head haccess (edits_assignAt (by rw [node?_put, if_pos rfl]))

theorem edits_write : s.Edits declared (s.write id payload access origin).store := by
  unfold write
  split
  · exact edits_create (has_eq_false.mpr ‹_›)
  · split
    · exact refl
    · exact edits_assignAt ‹_›

/-! ## Removing -/

theorem edits_eraseAll (ids : List Id) : s.Edits declared (s.eraseAll ids) := by
  induction ids generalizing s with
  | nil => exact refl
  | cons id rest ih => exact head (.erase id) ih

theorem edits_unlink (id : Id) : s.Edits declared (s.unlink id) := by
  unfold unlink
  split
  · split
    · exact single (.rekey _ ‹_›)
    · exact refl
  · exact refl

theorem edits_remove : s.Edits declared (s.remove id origin).store := by
  unfold remove
  split
  · exact (edits_unlink id).trans (edits_eraseAll _)
  · exact refl

/-! ## Containers -/

theorem edits_fill {values : List Value} (hvalues : ∀ value ∈ values, value.payload.Legal ∨
    ∃ container key schema, s.schema? container = some schema ∧ value ∈ schema.instantiate key) :
    s.Edits declared (s.fill origin values).1 := by
  induction values generalizing s with
  | nil => exact refl
  | cons value rest ih =>
    obtain ⟨hvalue, hrest⟩ := List.forall_mem_cons.mp hvalues
    cases hhas : s.has value.id with
    | true =>
      rw [fill_cons_old hhas]
      exact ih hrest
    | false =>
      rw [fill_cons_new hhas]
      exact head (.add hhas hvalue) (ih hrest)

theorem edits_addKeyAt (hnode : s.node? id = some node) (root : Id) :
    s.Edits declared (s.addKeyAt id node key root origin).store := by
  unfold addKeyAt
  split
  · exact refl
  · split
    · exact refl
    · refine head (.rekey (node.keys ++ [key]) hnode) (edits_fill fun value hvalue => ?_)
      rcases List.mem_cons.mp hvalue with rfl | hvalue
      · exact Or.inl ⟨rfl, rfl⟩
      · cases hschema : s.schema? id with
        | none => simp [hschema] at hvalue
        | some schema => exact Or.inr ⟨id, key, schema, hschema, by simpa [hschema] using hvalue⟩

theorem edits_addKey : s.Edits declared (s.addKey id key origin).store := by
  unfold addKey
  split
  · exact refl
  · split
    · exact edits_addKeyAt ‹_› _
    · exact refl
    · rename_i hnone
      refine head (.add (has_eq_false.mpr hnone) (Or.inl ⟨rfl, rfl⟩)) (edits_addKeyAt ?_ _)
      rw [node?_add, if_pos rfl]

theorem edits_removeKey : s.Edits declared (s.removeKey id key origin).store := by
  unfold removeKey
  split
  · exact refl
  · split
    · exact refl
    · rename_i node hnode
      unfold removeKeyAt
      split
      · exact refl
      · split
        · exact refl
        · exact head (.rekey (node.keys.erase key) hnode) (edits_eraseAll _)

theorem Step.edits {t : Store} (h : s.Step declared t) : s.Edits declared t := by
  cases h with
  | write => exact edits_write
  | declare => exact edits_declare
  | remove => exact edits_remove
  | removeWithToken id token origin =>
    unfold Store.removeWithToken
    split
    · exact edits_remove
    · exact refl
  | addKey => exact edits_addKey
  | removeKey => exact edits_removeKey
  | putSchema hschema => exact single (.putSchema hschema)
  | dropSchema id => exact single (.dropSchema id)

end

/-! ## The index -/

/-- The index has the ids of the nodes, and each node stands under its own. -/
structure Indexed (s : Store) : Prop where
  index_iff (id : Id) : id ∈ s.index ↔ s.has id = true
  node_id {id : Id} {node : Node} : s.node? id = some node → node.id = id

namespace Indexed

variable {s t : Store} {id : Id} {node : Node}

theorem empty : Indexed {} where
  index_iff id := by simp [has]
  node_id h := by simp at h

theorem put (h : s.Indexed) {node' : Node} (hnode : s.node? id = some node)
    (hid : node'.id = node.id) : (s.put id node').Indexed where
  index_iff x := by
    rw [index_put, h.index_iff, has, has, node?_put]
    split
    · subst_vars
      simp [hnode]
    · rfl
  node_id {x n} hx := by
    rw [node?_put] at hx
    split at hx
    · subst_vars
      rw [← Option.some.inj hx, hid, h.node_id hnode]
    · exact h.node_id hx

theorem edit {declared : List Schema} (h : s.Indexed) (he : s.Edit declared t) : t.Indexed := by
  cases he with
  | revalue hnode hid _ => exact h.put hnode hid
  | rekey keys hnode => exact h.put hnode rfl
  | add hnew _ =>
    constructor
    · intro x
      rw [mem_index_add, h.index_iff, has, has, node?_add]
      split <;> simp [*]
    · intro x n hx
      rw [node?_add] at hx
      split at hx
      · subst_vars
        rw [← Option.some.inj hx]
        rfl
      · exact h.node_id hx
  | erase id =>
    constructor
    · intro x
      rw [mem_index_erase, h.index_iff, has, has, node?_erase]
      split <;> simp [*]
    · intro x n hx
      rw [node?_erase] at hx
      split at hx
      · cases hx
      · exact h.node_id hx
  | putSchema _ => exact ⟨h.index_iff, h.node_id⟩
  | dropSchema id => exact ⟨h.index_iff, h.node_id⟩

theorem edits {declared : List Schema} (h : s.Indexed) (he : s.Edits declared t) : t.Indexed := by
  induction he with
  | refl => exact h
  | tail _ hstep ih => exact ih.edit hstep

/-! ## Every value -/

theorem id_of_get? (h : s.Indexed) {value : Value} (hget : s.get? id = some value) :
    value.id = id := by
  obtain ⟨node, hnode, rfl⟩ := Option.map_eq_some_iff.mp hget
  exact h.node_id hnode

theorem mem_values (h : s.Indexed) {value : Value} :
    value ∈ s.values ↔ ∃ id, s.get? id = some value := by
  rw [values, List.mem_filterMap]
  constructor
  · rintro ⟨id, -, hget⟩
    exact ⟨id, hget⟩
  · rintro ⟨id, hget⟩
    refine ⟨id, ?_, hget⟩
    obtain ⟨node, hnode, -⟩ := Option.map_eq_some_iff.mp hget
    rw [Std.ExtTreeSet.mem_toList, h.index_iff]
    exact has_eq_true.mpr ⟨node, hnode⟩

theorem mem_subtree_iff (h : s.Indexed) {r : Id} :
    r ∈ s.subtree id ↔ s.has r = true ∧ r.startsWith id = true := by
  rw [mem_subtree, h.index_iff]

theorem subtree_eq_nil_iff (h : s.Indexed) :
    s.subtree id = [] ↔ ∀ x, x.startsWith id = true → s.has x = false := by
  simp only [List.eq_nil_iff_forall_not_mem, h.mem_subtree_iff, not_and', Bool.not_eq_true]

/-- The values under some ids have these very ids. -/
theorem map_id_filterMap (h : s.Indexed) {ids : List Id} (hids : ∀ x ∈ ids, s.has x = true) :
    (ids.filterMap s.get?).map (·.id) = ids := by
  induction ids with
  | nil => rfl
  | cons x rest ih =>
    obtain ⟨node, hnode⟩ := has_eq_true.mp (hids x List.mem_cons_self)
    have hget : s.get? x = some node.value := by rw [get?, hnode, Option.map_some]
    have hid : node.value.id = x := h.node_id hnode
    rw [List.filterMap_cons, hget, List.map_cons, hid,
      ih fun y hy => hids y (List.mem_cons_of_mem _ hy)]

theorem ids_eq (h : s.Indexed) : s.ids = s.index.toList := by
  have hall (x : Id) (hx : x ∈ s.index.toList) : s.has x = true :=
    (h.index_iff x).mp (Std.ExtTreeSet.mem_toList.mp hx)
  rw [ids, values, h.map_id_filterMap hall]

theorem mem_ids (h : s.Indexed) : id ∈ s.ids ↔ s.has id = true := by
  rw [h.ids_eq, Std.ExtTreeSet.mem_toList, h.index_iff]

/-- A removal tells of each id that goes, the deepest ones first. -/
theorem events_remove (h : s.Indexed) (hhas : s.has id = true) (origin : Origin) :
    (s.remove id origin).events =
      (s.subtree id).reverse.map fun r => .removed r r.token origin := by
  have hids := h.map_id_filterMap fun r (hr : r ∈ (s.subtree id).reverse) =>
    (h.mem_subtree_iff.mp (List.mem_reverse.mp hr)).1
  have hevents := congrArg (List.map fun r => Event.removed r r.token origin) hids
  rw [List.map_map] at hevents
  simp only [Store.remove, hhas, if_true]
  exact hevents

theorem pairwise_values (h : s.Indexed) :
    s.values.Pairwise fun u v => compare u.id v.id = .lt := by
  rw [values, List.pairwise_filterMap]
  refine Std.ExtTreeSet.ordered_toList.imp ?_
  intro a b hab u hu v hv
  rwa [h.id_of_get? hu, h.id_of_get? hv]

end Indexed

theorem WellFormed.indexed {s : Store} (h : s.WellFormed) : s.Indexed := ⟨h.index_iff, h.node_id⟩

end Store

end ValueTree
