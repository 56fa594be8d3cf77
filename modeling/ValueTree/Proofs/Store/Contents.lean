import ValueTree.Proofs.Store.Subtree
import ValueTree.Store.Change

/-!
# What a change leaves under each id

One lemma for each step of a change and each of the three parts of a store: the nodes, the index and
the schemas. The changes themselves are put together from these steps.
-/

open Std

namespace ValueTree

/-- The node without one of its keys. -/
def Node.forget (node : Node) (key : String) : Node :=
  { node with keys := node.keys.filter (· ≠ key) }

namespace Store

variable {s : Store} {id x : Id}

theorem has_eq_true : s.has x = true ↔ ∃ node, s.node? x = some node :=
  Option.isSome_iff_exists

theorem has_eq_false : s.has x = false ↔ s.node? x = none := by
  rw [has, Option.isSome_eq_false_iff, Option.isNone_iff_eq_none]

theorem kind?_eq_some {kind : Kind} :
    s.kind? x = some kind ↔ ∃ node, s.node? x = some node ∧ node.value.kind = kind := by
  simp [kind?, get?]

/-- Two stores are the same if their parts are. -/
theorem ext_parts {t : Store} (hnode : ∀ x, s.node? x = t.node? x)
    (hindex : ∀ x, x ∈ s.index ↔ x ∈ t.index) (hschema : ∀ x, s.schema? x = t.schema? x) :
    s = t := by
  obtain ⟨nodes, index, templates⟩ := s
  obtain ⟨nodes', index', templates'⟩ := t
  have h1 : nodes = nodes' := ExtTreeMap.ext_getElem? hnode
  have h2 : index = index' := ExtTreeSet.ext_mem hindex
  have h3 : templates = templates' := ExtTreeMap.ext_getElem? hschema
  rw [h1, h2, h3]

/-! ## The empty store -/

@[simp]
theorem node?_empty : ({} : Store).node? x = none := ExtTreeMap.getElem?_empty

@[simp]
theorem schema?_empty : ({} : Store).schema? x = none := ExtTreeMap.getElem?_empty

@[simp]
theorem not_mem_index_empty : x ∉ ({} : Store).index := ExtTreeSet.not_mem_empty

/-! ## Single steps -/

theorem node?_put (node : Node) :
    (s.put id node).node? x = if id = x then some node else s.node? x := by
  simp only [put, node?, ExtTreeMap.getElem?_insert, LawfulEqCmp.compare_eq_iff_eq]

theorem has_put {node node' : Node} (hnode : s.node? id = some node) :
    (s.put id node').has x = s.has x := by
  rw [has, node?_put]
  split
  · subst_vars
    simp [has, hnode]
  · rfl

@[simp]
theorem index_put (node : Node) : (s.put id node).index = s.index := rfl

@[simp]
theorem schema?_put (node : Node) : (s.put id node).schema? x = s.schema? x := rfl

theorem node?_add (value : Value) :
    (s.add value).node? x = if value.id = x then some { value } else s.node? x := by
  simp only [add, node?, ExtTreeMap.getElem?_insert, LawfulEqCmp.compare_eq_iff_eq]

theorem mem_index_add (value : Value) : x ∈ (s.add value).index ↔ value.id = x ∨ x ∈ s.index := by
  simp only [add, ExtTreeSet.mem_insert, LawfulEqCmp.compare_eq_iff_eq]

@[simp]
theorem schema?_add (value : Value) : (s.add value).schema? x = s.schema? x := rfl

@[simp]
theorem node?_putSchema (schema : Schema) : (s.putSchema schema).node? x = s.node? x := rfl

@[simp]
theorem index_putSchema (schema : Schema) : (s.putSchema schema).index = s.index := rfl

theorem schema?_putSchema (schema : Schema) :
    (s.putSchema schema).schema? x = if schema.id = x then some schema else s.schema? x := by
  simp only [putSchema, schema?, ExtTreeMap.getElem?_insert, LawfulEqCmp.compare_eq_iff_eq]

@[simp]
theorem node?_dropSchema : (s.dropSchema id).node? x = s.node? x := rfl

@[simp]
theorem index_dropSchema : (s.dropSchema id).index = s.index := rfl

theorem schema?_dropSchema :
    (s.dropSchema id).schema? x = if id = x then none else s.schema? x := by
  simp only [dropSchema, schema?, ExtTreeMap.getElem?_erase, LawfulEqCmp.compare_eq_iff_eq]

theorem node?_erase : (s.erase id).node? x = if id = x then none else s.node? x := by
  simp only [erase, node?, ExtTreeMap.getElem?_erase, LawfulEqCmp.compare_eq_iff_eq]

theorem mem_index_erase : x ∈ (s.erase id).index ↔ id ≠ x ∧ x ∈ s.index := by
  simp only [erase, ExtTreeSet.mem_erase, ne_eq, LawfulEqCmp.compare_eq_iff_eq]

theorem schema?_erase :
    (s.erase id).schema? x = if id = x ∧ s.has id = true then none else s.schema? x := by
  simp only [erase, schema?]
  cases s.has id with
  | true =>
    simp only [if_true, and_true, ExtTreeMap.getElem?_erase, LawfulEqCmp.compare_eq_iff_eq]
  | false => simp

theorem kind?_put_self (node : Node) : (s.put id node).kind? id = some node.value.kind := by
  simp [kind?, get?, node?_put]

theorem kind?_add_self (value : Value) : (s.add value).kind? value.id = some value.kind := by
  simp [kind?, get?, node?_add]

/-- A new value and a changed node do not see each other. -/
theorem add_put {node : Node} {value : Value} (h : id ≠ value.id) :
    (s.put id node).add value = (s.add value).put id node := by
  apply ext_parts
  · intro x
    simp only [node?_add, node?_put]
    by_cases hx : id = x
    · simp [← hx, Ne.symm h]
    · simp [hx]
  · intro x
    rfl
  · intro x
    rfl

/-! ## Erasing many -/

theorem node?_eraseAll (ids : List Id) :
    (s.eraseAll ids).node? x = if x ∈ ids then none else s.node? x := by
  induction ids generalizing s with
  | nil => simp [eraseAll]
  | cons id rest ih =>
    simp only [eraseAll, List.foldl_cons] at ih ⊢
    rw [ih, node?_erase]
    by_cases hx : id = x
    · simp [hx]
    · simp [hx, Ne.symm hx]

theorem mem_index_eraseAll (ids : List Id) :
    x ∈ (s.eraseAll ids).index ↔ x ∉ ids ∧ x ∈ s.index := by
  induction ids generalizing s with
  | nil => simp [eraseAll]
  | cons id rest ih =>
    simp only [eraseAll, List.foldl_cons] at ih ⊢
    simp only [ih, mem_index_erase, List.mem_cons, not_or, ne_eq, eq_comm, and_assoc,
      and_left_comm]

theorem schema?_eraseAll (ids : List Id) :
    (s.eraseAll ids).schema? x = if x ∈ ids ∧ s.has x = true then none else s.schema? x := by
  induction ids generalizing s with
  | nil => simp [eraseAll]
  | cons id rest ih =>
    simp only [eraseAll, List.foldl_cons] at ih ⊢
    rw [ih, schema?_erase, has, node?_erase]
    by_cases hx : id = x
    · subst hx
      simp
    · simp [hx, has, Ne.symm hx]

/-! ## Unlinking -/

theorem unlink_root : s.unlink .root = s := by
  simp [unlink, Id.root, Id.parent?]

theorem node?_unlink_child (p : Id) (key : String) :
    (s.unlink (p.child key)).node? x =
      if p = x then (s.node? x).map (·.forget key) else s.node? x := by
  simp only [unlink, Id.parent?_child, Id.leaf?_child]
  cases h : s.node? p with
  | none =>
    by_cases hx : p = x
    · simp [← hx, h]
    · simp [hx]
  | some node =>
    simp only [node?_put]
    by_cases hx : p = x
    · simp [← hx, h, Node.forget]
    · simp [hx]

@[simp]
theorem index_unlink : (s.unlink id).index = s.index := by
  unfold unlink
  repeat' split
  all_goals rfl

@[simp]
theorem schema?_unlink : (s.unlink id).schema? x = s.schema? x := by
  unfold unlink
  repeat' split
  all_goals rfl

@[simp]
theorem has_unlink : (s.unlink id).has x = s.has x := by
  rcases id.root_or_child with rfl | ⟨p, key, rfl⟩
  · rw [unlink_root]
  · simp only [has, node?_unlink_child]
    split
    · exact Option.isSome_map
    · rfl

/-! ## Filling -/

variable {value : Value} {rest : List Value} {origin : Origin}

theorem fill_cons_old (h : s.has value.id = true) :
    s.fill origin (value :: rest) = s.fill origin rest := by
  rw [fill, if_pos h]

theorem fill_cons_new (h : s.has value.id = false) :
    s.fill origin (value :: rest) =
      (((s.add value).fill origin rest).1,
        .added value origin :: ((s.add value).fill origin rest).2) := by
  rw [fill, if_neg (Bool.eq_false_iff.mp h)]

theorem node?_fill (values : List Value) : (s.fill origin values).1.node? x =
    (s.node? x).or ((values.find? (·.id = x)).map fun value => { value }) := by
  induction values generalizing s with
  | nil => simp [fill]
  | cons value rest ih =>
    cases hhas : s.has value.id with
    | true =>
      rw [fill_cons_old hhas, ih, List.find?_cons]
      obtain ⟨node, hnode⟩ := has_eq_true.mp hhas
      by_cases hx : value.id = x
      · subst hx
        simp [hnode]
      · simp [hx]
    | false =>
      rw [fill_cons_new hhas, ih, node?_add, List.find?_cons]
      by_cases hx : value.id = x
      · subst hx
        simp [has_eq_false.mp hhas]
      · simp [hx]

/-- What is there is not filled in again. -/
theorem node?_fill_old {values : List Value} (h : s.has x = true) :
    (s.fill origin values).1.node? x = s.node? x := by
  obtain ⟨node, hnode⟩ := has_eq_true.mp h
  rw [node?_fill, hnode]
  rfl

theorem has_fill {values : List Value} : (s.fill origin values).1.has x = true ↔
    s.has x = true ∨ ∃ value ∈ values, value.id = x := by
  rw [has, node?_fill, Option.isSome_or, Bool.or_eq_true, Option.isSome_map, List.find?_isSome]
  simp [has]

/-! ## Keys of a container -/

section

variable {node : Node} {key : String} (hnode : s.node? id = some node)
  (hkind : node.value.kind = .container) (hsegment : Id.segmentFault? key = none)

include hnode hkind hsegment

theorem addKey_new (hkey : key ∉ node.keys) :
    let filled := (s.put id { node with keys := node.keys ++ [key] }).fill origin
      (s.instanceValues id key (id.child key))
    s.addKey id key origin = ⟨.ok true, filled.1, .keyAdded id key origin :: filled.2⟩ := by
  have hjoin : id.join key = .ok (id.child key) := Id.join_eq_ok_iff.mpr ⟨hsegment, rfl⟩
  simp [addKey, hjoin, hnode, addKeyAt, hkind, hkey]

theorem removeKey_old (hkey : key ∈ node.keys) : s.removeKey id key origin =
    ⟨.ok true, (s.put id { node with keys := node.keys.erase key }).eraseAll
      (s.subtree (id.child key)), [.keyRemoved id key origin]⟩ := by
  have hjoin : id.join key = .ok (id.child key) := Id.join_eq_ok_iff.mpr ⟨hsegment, rfl⟩
  simp [removeKey, hjoin, hnode, removeKeyAt, hkind, hkey]

theorem removeKey_absent (hkey : key ∉ node.keys) : s.removeKey id key origin = s.unchanged false := by
  have hjoin : id.join key = .ok (id.child key) := Id.join_eq_ok_iff.mpr ⟨hsegment, rfl⟩
  simp [removeKey, hjoin, hnode, removeKeyAt, hkind, hkey]

end

/-! ## Schemas

Only a declaration of a container brings in a schema. -/

variable {payload : Payload} {access : Access} {node : Node} {key : String} {token : Token}
  {schema : Schema}

@[simp]
theorem schema?_create : (s.create id payload access origin).store.schema? x = s.schema? x := by
  unfold create
  split <;> rfl

@[simp]
theorem schema?_assignAt : (s.assignAt id node payload origin).store.schema? x = s.schema? x := by
  unfold assignAt
  split <;> rfl

@[simp]
theorem schema?_declare : (s.declare id payload access).store.schema? x = s.schema? x := by
  unfold declare
  split
  · exact schema?_create
  · exact schema?_assignAt

@[simp]
theorem schema?_write : (s.write id payload access origin).store.schema? x = s.schema? x := by
  unfold write
  split
  · exact schema?_create
  · split
    · rfl
    · exact schema?_assignAt

@[simp]
theorem schema?_fill (values : List Value) :
    (s.fill origin values).1.schema? x = s.schema? x := by
  induction values generalizing s with
  | nil => rfl
  | cons value rest ih =>
    cases hhas : s.has value.id with
    | true => rw [fill_cons_old hhas, ih]
    | false => rw [fill_cons_new hhas, ih, schema?_add]

@[simp]
theorem schema?_addKeyAt {root : Id} :
    (s.addKeyAt id node key root origin).store.schema? x = s.schema? x := by
  unfold addKeyAt
  split
  · rfl
  · split
    · rfl
    · exact schema?_fill _

@[simp]
theorem schema?_addKey : (s.addKey id key origin).store.schema? x = s.schema? x := by
  unfold addKey
  split
  · rfl
  · split
    · exact schema?_addKeyAt
    · rfl
    · exact schema?_addKeyAt

theorem schema?_of_eraseAll {ids : List Id} (h : (s.eraseAll ids).schema? x = some schema) :
    s.schema? x = some schema := by
  rw [schema?_eraseAll] at h
  split at h
  · simp at h
  · exact h

theorem schema?_of_remove (h : (s.remove id origin).store.schema? x = some schema) :
    s.schema? x = some schema := by
  unfold remove at h
  split at h
  · rw [← schema?_unlink]
    exact schema?_of_eraseAll h
  · exact h

theorem schema?_of_removeWithToken
    (h : (s.removeWithToken id token origin).store.schema? x = some schema) :
    s.schema? x = some schema := by
  unfold removeWithToken at h
  split at h
  · exact schema?_of_remove h
  · exact h

theorem schema?_of_removeKey (h : (s.removeKey id key origin).store.schema? x = some schema) :
    s.schema? x = some schema := by
  unfold removeKey at h
  split at h
  · exact h
  · split at h
    · exact h
    · unfold removeKeyAt at h
      split at h
      · exact h
      · split at h
        · exact h
        · have := schema?_of_eraseAll h
          rwa [schema?_put] at this

end Store

end ValueTree
