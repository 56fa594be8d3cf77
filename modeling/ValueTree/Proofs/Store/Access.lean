import ValueTree.Proofs.Store.Legality

/-!
# Who may write

A value is given its access mode when it comes into being. No write changes it after that, whoever
it is from and whatever access mode it comes with: only a declaration does. Whether a local write is
refused depends on the access mode alone.
-/

namespace ValueTree

namespace Store

variable {s : Store} {id x : Id} {node : Node} {payload : Payload} {access mode : Access}
  {origin : Origin} {key : String}

def access? (s : Store) (id : Id) : Option Access := (s.get? id).map (·.access)

theorem access?_eq : s.access? x = (s.node? x).map (·.value.access) := Option.map_map ..

theorem access?_of_node (hnode : s.node? x = some node) :
    s.access? x = some node.value.access := by
  rw [access?_eq, hnode]
  rfl

theorem access?_eq_some :
    s.access? x = some mode ↔ ∃ node, s.node? x = some node ∧ node.value.access = mode := by
  rw [access?_eq, Option.map_eq_some_iff]

theorem access?_eq_none : s.access? x = none ↔ s.node? x = none := by
  rw [access?_eq, Option.map_eq_none_iff]

/-! ## Local writes -/

/-- Every local write is refused. -/
structure Guarded (s : Store) (id : Id) : Prop where
  set (payload : Payload) : s.set id payload .local = s.failed (.rejected id .access)
  setValue {value : Value} : value.id = id →
    s.setValue value .local = s.failed (.rejected id .access)

/-- A local write does what one from the other end would do. -/
structure Unguarded (s : Store) (id : Id) : Prop where
  result (payload : Payload) :
    (s.set id payload .local).result = (s.set id payload .remote).result
  store (payload : Payload) :
    (s.set id payload .local).store = (s.set id payload .remote).store

theorem guarded_of_readOnly (h : s.access? id = some .readOnly) : s.Guarded id := by
  obtain ⟨node, hnode, hmode⟩ := access?_eq_some.mp h
  constructor
  · exact fun payload => write_readOnly hnode hmode
  · rintro value rfl
    exact write_readOnly hnode hmode

/-- Only the events tell where an assignment comes from. -/
theorem assignAt_origin : (s.assignAt id node payload .local).result =
      (s.assignAt id node payload .remote).result ∧
    (s.assignAt id node payload .local).store = (s.assignAt id node payload .remote).store := by
  unfold assignAt
  split <;> exact ⟨rfl, rfl⟩

theorem unguarded_of_readWrite (h : s.access? id = some .readWrite) : s.Unguarded id := by
  obtain ⟨node, hnode, hmode⟩ := access?_eq_some.mp h
  have hwrite (payload : Payload) (origin : Origin) :
      s.set id payload origin = s.assignAt id node payload origin := by
    unfold set write
    rw [hnode]
    dsimp only
    rw [if_neg (by simp [Value.isReadOnly, hmode])]
  constructor <;> intro payload <;> rw [hwrite, hwrite]
  · exact assignAt_origin.1
  · exact assignAt_origin.2

/-! ## Single steps -/

theorem access?_put {node' : Node} (hnode : s.node? id = some node)
    (h : node'.value.access = node.value.access) : (s.put id node').access? x = s.access? x := by
  rw [access?_eq, node?_put]
  split
  · subst_vars
    rw [access?_of_node hnode, Option.map_some, h]
  · exact access?_eq.symm

theorem access?_rekey (keys : List String) (hnode : s.node? id = some node) :
    (s.put id { node with keys }).access? x = s.access? x :=
  access?_put hnode rfl

theorem access?_add_self (value : Value) : (s.add value).access? value.id = some value.access := by
  rw [access?_eq, node?_add, if_pos rfl]
  rfl

theorem access?_add {value : Value} (hnew : s.has value.id = false)
    (h : s.access? x = some mode) : (s.add value).access? x = some mode := by
  rw [access?_eq, node?_add, if_neg]
  · exact access?_eq ▸ h
  · rintro rfl
    rw [access?_eq_none.mpr (has_eq_false.mp hnew)] at h
    cases h

theorem access?_eraseAll (ids : List Id) :
    (s.eraseAll ids).access? x = if x ∈ ids then none else s.access? x := by
  rw [access?_eq, node?_eraseAll, access?_eq]
  split <;> rfl

theorem access?_unlink : (s.unlink id).access? x = s.access? x := by
  unfold unlink
  split
  · split
    · exact access?_rekey _ ‹_›
    · rfl
  · rfl

theorem access?_fill {values : List Value} (h : s.access? x = some mode) :
    (s.fill origin values).1.access? x = some mode := by
  induction values generalizing s with
  | nil => exact h
  | cons value rest ih =>
    cases hhas : s.has value.id with
    | true =>
      rw [fill_cons_old hhas]
      exact ih h
    | false =>
      rw [fill_cons_new hhas]
      exact ih (access?_add hhas h)

/-! ## Writing -/

theorem access?_create {status : SetStatus}
    (h : (s.create id payload access origin).result = .ok status) :
    (s.create id payload access origin).store.access? id = some access := by
  unfold create at h ⊢
  split at h
  · cases h
  · exact access?_add_self _

theorem access?_create_other (hnone : s.node? id = none) (h : s.access? x = some mode) :
    (s.create id payload access origin).store.access? x = some mode := by
  unfold create
  split
  · exact h
  · exact access?_add (has_eq_false.mpr hnone) h

theorem access?_assignAt (hnode : s.node? id = some node) :
    (s.assignAt id node payload origin).store.access? x = s.access? x := by
  unfold assignAt
  split
  · rfl
  · rfl
  · rename_i value hassign
    obtain ⟨result, -, rfl⟩ := Value.assign_eq_ok.mp hassign
    exact access?_put hnode rfl

theorem access?_declare (hid : id ≠ x) (h : s.access? x = some mode) :
    (s.declare id payload access).store.access? x = some mode := by
  unfold declare
  split
  · exact access?_create_other ‹_› h
  · rename_i node hnode
    rw [access?_assignAt (by rw [node?_put, if_pos rfl]), access?_eq, node?_put, if_neg hid]
    exact access?_eq ▸ h

/-- A write leaves the access mode of all that is there. -/
theorem access?_write (h : s.access? x = some mode) :
    (s.write id payload access origin).store.access? x = some mode := by
  unfold write
  split
  · exact access?_create_other ‹_› h
  · split
    · exact h
    · exact (access?_assignAt ‹_›).trans h

/-- The access mode of a value counts only if there was none. -/
theorem access?_setValue {value : Value} {status : SetStatus}
    (h : (s.setValue value origin).result = .ok status) :
    (s.setValue value origin).store.access? value.id =
      some ((s.access? value.id).getD value.access) := by
  cases hmode : s.access? value.id with
  | some mode => exact access?_write hmode
  | none =>
    have hcreate : s.setValue value origin =
        s.create value.id value.payload value.access origin := by
      unfold setValue write
      rw [access?_eq_none.mp hmode]
    rw [hcreate] at h ⊢
    exact access?_create h

/-! ## Changes -/

theorem access?_addKeyAt {root : Id} (hnode : s.node? id = some node)
    (h : s.access? x = some mode) :
    (s.addKeyAt id node key root origin).store.access? x = some mode := by
  unfold addKeyAt
  split
  · exact h
  · split
    · exact h
    · exact access?_fill ((access?_rekey _ hnode).trans h)

theorem access?_addKey (h : s.access? x = some mode) :
    (s.addKey id key origin).store.access? x = some mode := by
  unfold addKey
  split
  · exact h
  · split
    · exact access?_addKeyAt ‹_› h
    · exact h
    · rename_i hnone
      refine access?_addKeyAt ?_ (access?_add (has_eq_false.mpr hnone) h)
      rw [node?_add, if_pos rfl]

theorem access?_remove :
    (s.remove id origin).store.access? x = s.access? x ∨
      (s.remove id origin).store.access? x = none := by
  unfold remove
  split
  · rw [access?_eraseAll, access?_unlink]
    split
    · exact Or.inr rfl
    · exact Or.inl rfl
  · exact Or.inl rfl

theorem access?_removeKey :
    (s.removeKey id key origin).store.access? x = s.access? x ∨
      (s.removeKey id key origin).store.access? x = none := by
  unfold removeKey
  split
  · exact Or.inl rfl
  · split
    · exact Or.inl rfl
    · rename_i node hnode
      unfold removeKeyAt
      split
      · exact Or.inl rfl
      · split
        · exact Or.inl rfl
        · rw [access?_eraseAll, access?_rekey _ hnode]
          split
          · exact Or.inr rfl
          · exact Or.inl rfl

/-- The id is gone, or its owner has declared it. -/
def Resettled (x : Id) (s t : Store) : Prop :=
  t.access? x = none ∨ ∃ payload access, t = (s.declare x payload access).store

/-- An access mode lasts through a change, unless the change settles it anew. -/
theorem Step.access? {declared : List Schema} {t : Store} (h : s.Step declared t)
    (hs : s.access? x = some mode) : t.access? x = some mode ∨ Resettled x s t := by
  cases h with
  | write => exact Or.inl (access?_write hs)
  | declare id payload access =>
    by_cases hid : id = x
    · subst hid
      exact Or.inr (Or.inr ⟨payload, access, rfl⟩)
    · exact Or.inl (access?_declare hid hs)
  | remove id origin => exact access?_remove.imp (·.trans hs) Or.inl
  | removeWithToken id token origin =>
    unfold Store.removeWithToken
    split
    · exact access?_remove.imp (·.trans hs) Or.inl
    · exact Or.inl hs
  | addKey => exact Or.inl (access?_addKey hs)
  | removeKey => exact access?_removeKey.imp (·.trans hs) Or.inl
  | putSchema _ => exact Or.inl hs
  | dropSchema _ => exact Or.inl hs

end Store

end ValueTree
