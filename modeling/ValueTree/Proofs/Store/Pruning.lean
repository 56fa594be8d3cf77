import ValueTree.Proofs.Store.Declaring

/-!
# What is left of a store

Removals take ids out of a store and leave the rest as it is, but for the keys and the schemas of
what went. So a store that removals led to is known by what is still there.
-/

namespace ValueTree

/-- The node with some of its keys only. -/
def Node.retain (node : Node) (keep : String → Bool) : Node :=
  { node with keys := node.keys.filter keep }

theorem Node.retain_congr {node : Node} {keep keep' : String → Bool}
    (h : ∀ key ∈ node.keys, keep key = keep' key) : node.retain keep = node.retain keep' := by
  rw [retain, retain, List.filter_congr h]

theorem Node.retain_eq_self {node : Node} {keep : String → Bool}
    (h : ∀ key ∈ node.keys, keep key = true) : node.retain keep = node := by
  rw [retain, List.filter_eq_self.mpr h]

namespace Store

variable {s t u : Store} {id x : Id} {node : Node} {origin : Origin}

/-- `t` is what is left of `s`. Of the keys those stay whose instances stay, in their order, and of
the schemas those whose ids stay. -/
structure Pruned (s t : Store) : Prop where
  index_iff (x : Id) : x ∈ t.index ↔ t.has x = true
  node? {x : Id} : t.has x = true →
    t.node? x = (s.node? x).map (·.retain fun key => t.has (x.child key))
  schema? (x : Id) : t.schema? x = if t.has x then s.schema? x else none

theorem WellFormed.schema?_of_not_has (h : s.WellFormed) (hx : s.has x = false) :
    s.schema? x = none := by
  cases hschema : s.schema? x with
  | none => rfl
  | some schema =>
    obtain ⟨node, hnode, -⟩ := kind?_eq_some.mp (h.schema_place hschema).2
    simp [has, hnode] at hx

namespace Pruned

theorem has (h : s.Pruned t) (hx : t.has x = true) : s.has x = true := by
  have hnode := h.node? hx
  obtain ⟨node, hsome⟩ := has_eq_true.mp hx
  rw [hsome] at hnode
  obtain ⟨old, hold, -⟩ := Option.map_eq_some_iff.mp hnode.symm
  exact has_eq_true.mpr ⟨old, hold⟩

theorem refl (h : s.WellFormed) : s.Pruned s where
  index_iff := h.index_iff
  node? {x} hx := by
    obtain ⟨node, hnode⟩ := has_eq_true.mp hx
    rw [hnode, Option.map_some, Node.retain_eq_self fun key hkey => h.keys_have hnode hkey]
  schema? x := by
    cases hx : s.has x with
    | true => rfl
    | false => exact h.schema?_of_not_has hx

theorem trans (h : s.Pruned t) (h' : t.Pruned u) : s.Pruned u where
  index_iff := h'.index_iff
  node? {x} hx := by
    rw [h'.node? hx, h.node? (h'.has hx), Option.map_map]
    congr 1
    funext node
    -- A key that the second pruning leaves was left by the first one.
    simp only [Function.comp_apply, Node.retain, List.filter_filter]
    congr 1
    apply List.filter_congr
    intro key _
    cases hu : u.has (x.child key) with
    | true => rw [h'.has hu, Bool.and_true]
    | false => rfl
  schema? x := by
    rw [h'.schema?, h.schema?]
    cases hu : u.has x with
    | true => simp [h'.has hu]
    | false => rfl

end Pruned

/-! ## Removals -/

theorem segmentFault?_of_removeKey {key : String} {answer : Bool}
    (h : (s.removeKey id key origin).result = .ok answer) : Id.segmentFault? key = none := by
  unfold removeKey at h
  split at h
  · cases h
  · rename_i hjoin
    exact (Id.join_eq_ok_iff.mp hjoin).1

theorem node?_unlink : (s.unlink id).node? x = (s.node? x).map (·.retain (x.child · ≠ id)) := by
  have hsame (hne : ∀ key, x.child key ≠ id) :
      (s.node? x).map (·.retain (x.child · ≠ id)) = s.node? x := by
    cases s.node? x with
    | none => rfl
    | some node => exact congrArg some (Node.retain_eq_self fun key _ => by simpa using hne key)
  rcases id.root_or_child with rfl | ⟨p, key, rfl⟩
  · rw [unlink_root, hsame]
    simp [Id.child, Id.root]
  · rw [node?_unlink_child]
    split
    · subst_vars
      simp only [ne_eq, Id.child_inj, true_and]
      rfl
    · rename_i hp
      rw [hsame]
      intro k hk
      exact hp (Id.child_inj.mp hk).1.symm

section

variable {ids : List Id} (hids : ∀ y, y ∈ ids ↔ t.has y = true ∧ y.startsWith id = true)

include hids

theorem node?_eraseAll_below :
    (t.eraseAll ids).node? x = if x.startsWith id then none else t.node? x := by
  rw [node?_eraseAll]
  cases hx : x.startsWith id with
  | false => simp [hids, hx]
  | true =>
    cases hhas : t.has x with
    | true => simp [hids, hx, hhas]
    | false => simp [hids, hx, hhas, has_eq_false.mp hhas]

theorem schema?_eraseAll_below (hnone : t.has x = false → t.schema? x = none) :
    (t.eraseAll ids).schema? x = if x.startsWith id then none else t.schema? x := by
  rw [schema?_eraseAll]
  cases hx : x.startsWith id with
  | false => simp [hids, hx]
  | true =>
    cases hhas : t.has x with
    | true => simp [hids, hx, hhas]
    | false => simp [hids, hx, hhas, hnone hhas]

end

theorem Indexed.node?_remove (h : s.Indexed) (hid : s.has id = true) :
    (s.remove id origin).store.node? x =
      if x.startsWith id then none else (s.node? x).map (·.retain (x.child · ≠ id)) := by
  simp only [Store.remove, hid, if_true]
  rw [node?_eraseAll_below fun y => ?_, node?_unlink]
  rw [List.mem_reverse, h.mem_subtree_iff, has_unlink]

namespace WellFormed

theorem node?_remove (h : s.WellFormed) (hid : s.has id = true) :
    (s.remove id origin).store.node? x =
      if x.startsWith id then none else (s.node? x).map (·.retain (x.child · ≠ id)) :=
  h.indexed.node?_remove hid

theorem schema?_remove (h : s.WellFormed) (hid : s.has id = true) :
    (s.remove id origin).store.schema? x = if x.startsWith id then none else s.schema? x := by
  simp only [Store.remove, hid, if_true]
  rw [schema?_eraseAll_below (fun y => ?_) fun hx => ?_, schema?_unlink]
  · rw [List.mem_reverse, h.indexed.mem_subtree_iff, has_unlink]
  · rw [schema?_unlink]
    exact h.schema?_of_not_has (has_unlink.symm.trans hx)

theorem has_remove_iff (h : s.WellFormed) :
    (s.remove id origin).store.has x = true ↔
      s.has x = true ∧ ¬(s.has id = true ∧ x.startsWith id = true) := by
  cases hid : s.has id with
  | false => simp [Store.remove, hid, unchanged]
  | true =>
    rw [Store.has, h.node?_remove hid]
    cases x.startsWith id <;> simp [Store.has]

theorem pruned_remove (h : s.WellFormed) (id : Id) (origin : Origin) :
    s.Pruned (s.remove id origin).store := by
  cases hid : s.has id with
  | false =>
    unfold Store.remove
    rw [hid]
    exact .refl h
  | true =>
    refine ⟨(h.remove id origin).index_iff, ?_, ?_⟩
    · intro x hx
      obtain ⟨hhas, hout⟩ := h.has_remove_iff.mp hx
      have hout : x.startsWith id = false := by simpa [hid] using hout
      obtain ⟨node, hnode⟩ := has_eq_true.mp hhas
      rw [h.node?_remove hid, hout, hnode, Option.map_some, Option.map_some]
      refine congrArg some (Node.retain_congr fun key hkey => Bool.eq_iff_iff.mpr ?_)
      -- Of the keys of an id that stays, only the removed id itself can go.
      rw [h.has_remove_iff, Id.child_startsWith_iff, hout]
      simp [hid, h.keys_have hnode hkey]
    · intro x
      rw [h.schema?_remove hid]
      cases hx : x.startsWith id with
      | true => simp [h.has_remove_iff, hid, hx]
      | false =>
        cases hhas : s.has x with
        | true => simp [h.has_remove_iff, hhas, hx]
        | false => simp [h.schema?_of_not_has hhas]

section

variable {key : String} {answer : Bool} (h : s.WellFormed) (hnode : s.node? id = some node)
  (hkey : key ∈ node.keys) (hok : (s.removeKey id key origin).result = .ok answer)

include h hnode hkey hok

/-- A key that is there goes, and all that lies below it. -/
theorem store_removeKey : (s.removeKey id key origin).store =
    (s.put id { node with keys := node.keys.erase key }).eraseAll (s.subtree (id.child key)) := by
  have hkind := h.keys_kind hnode (List.ne_nil_of_mem hkey)
  rw [removeKey_old hnode hkind (segmentFault?_of_removeKey hok) hkey]

theorem node?_removeKey : (s.removeKey id key origin).store.node? x =
    if x.startsWith (id.child key) then none
    else if id = x then some { node with keys := node.keys.erase key } else s.node? x := by
  rw [h.store_removeKey hnode hkey hok, node?_eraseAll_below fun y => ?_, node?_put]
  rw [h.indexed.mem_subtree_iff, has_put hnode]

theorem schema?_removeKey : (s.removeKey id key origin).store.schema? x =
    if x.startsWith (id.child key) then none else s.schema? x := by
  rw [h.store_removeKey hnode hkey hok, schema?_eraseAll_below (fun y => ?_) fun hx => ?_,
    schema?_put]
  · rw [h.indexed.mem_subtree_iff, has_put hnode]
  · exact h.schema?_of_not_has ((has_put hnode).symm.trans hx)

end

theorem dropSchema_of_not_has (h : s.WellFormed) (hid : s.has id = false) :
    s.dropSchema id = s := by
  refine (h.dropSchema id).ext h (fun x => rfl) fun x => ?_
  rw [schema?_dropSchema]
  split
  · subst_vars
    exact (h.schema?_of_not_has hid).symm
  · rfl

end WellFormed

end Store

end ValueTree
