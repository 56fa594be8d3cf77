import ValueTree.Proofs.Store.WellFormed

/-!
# Names of keys

A container takes only keys that may stand as a segment of an id, whatever is done to its store.
-/

namespace ValueTree

namespace Store

/-- The keys of a node, in the order in which they were added. -/
def keysAt (s : Store) (id : Id) : List String := ((s.node? id).map (·.keys)).getD []

/-- Every key is a segment that an id may have. -/
def KeysNamed (s : Store) : Prop := ∀ id, ∀ key ∈ s.keysAt id, Id.segmentFault? key = none

variable {s : Store} {id x : Id} {node : Node} {value : Value} {key : String} {payload : Payload}
  {access : Access} {origin : Origin}

theorem keysAt_of_node? (h : s.node? id = some node) : s.keysAt id = node.keys := by
  simp [keysAt, h]

theorem WellFormed.kind?_of_mem_keysAt (h : s.WellFormed) (hkey : key ∈ s.keysAt id) :
    s.kind? id = some .container := by
  cases hnode : s.node? id with
  | none => simp [keysAt, hnode] at hkey
  | some node =>
    rw [keysAt_of_node? hnode] at hkey
    exact kind?_eq_some.mpr ⟨node, hnode, h.keys_kind hnode (List.ne_nil_of_mem hkey)⟩

theorem keysNamed_empty : KeysNamed {} := by
  simp [KeysNamed, keysAt]

namespace KeysNamed

theorem put (h : s.KeysNamed) (hkeys : ∀ key ∈ node.keys, Id.segmentFault? key = none) :
    (s.put id node).KeysNamed := by
  intro x
  rw [keysAt, node?_put]
  split
  · exact hkeys
  · exact h x

theorem put_sublist (h : s.KeysNamed) {node' : Node} (hnode : s.node? id = some node)
    (hkeys : node'.keys.Sublist node.keys) : (s.put id node').KeysNamed :=
  h.put fun key hkey => h id key (keysAt_of_node? hnode ▸ hkeys.subset hkey)

theorem add (h : s.KeysNamed) : (s.add value).KeysNamed := by
  intro x
  rw [keysAt, node?_add]
  split
  · simp
  · exact h x

theorem eraseAll (h : s.KeysNamed) (ids : List Id) : (s.eraseAll ids).KeysNamed := by
  intro x
  rw [keysAt, node?_eraseAll]
  split
  · simp
  · exact h x

theorem fill (h : s.KeysNamed) (values : List Value) : (s.fill origin values).1.KeysNamed := by
  induction values generalizing s with
  | nil => exact h
  | cons value rest ih =>
    cases hhas : s.has value.id with
    | true =>
      rw [fill_cons_old hhas]
      exact ih h
    | false =>
      rw [fill_cons_new hhas]
      exact ih h.add

theorem create (h : s.KeysNamed) : (s.create id payload access origin).store.KeysNamed := by
  unfold Store.create
  split
  · exact h
  · exact h.add

theorem assignAt (h : s.KeysNamed) (hnode : s.node? id = some node) :
    (s.assignAt id node payload origin).store.KeysNamed := by
  unfold Store.assignAt
  split
  · exact h
  · exact h
  · exact h.put_sublist hnode (List.Sublist.refl _)

theorem declare (h : s.KeysNamed) : (s.declare id payload access).store.KeysNamed := by
  unfold Store.declare
  split
  · exact h.create
  · rename_i node hnode
    have hkept : (s.put id { node with value := { node.value with access } }).KeysNamed :=
      h.put_sublist hnode (List.Sublist.refl _)
    exact hkept.assignAt (by rw [node?_put, if_pos rfl])

theorem write (h : s.KeysNamed) : (s.write id payload access origin).store.KeysNamed := by
  unfold Store.write
  split
  · exact h.create
  · split
    · exact h
    · exact h.assignAt ‹_›

theorem remove (h : s.KeysNamed) : (s.remove id origin).store.KeysNamed := by
  unfold Store.remove
  split
  · apply eraseAll
    unfold unlink
    split
    · split
      · exact h.put_sublist ‹_› List.filter_sublist
      · exact h
    · exact h
  · exact h

theorem removeWithToken (h : s.KeysNamed) (token : Token) :
    (s.removeWithToken id token origin).store.KeysNamed := by
  unfold Store.removeWithToken
  split
  · exact h.remove
  · exact h

theorem addKeyAt (h : s.KeysNamed) (hnode : s.node? id = some node)
    (hkey : Id.segmentFault? key = none) (root : Id) :
    (s.addKeyAt id node key root origin).store.KeysNamed := by
  unfold Store.addKeyAt
  split
  · exact h
  · split
    · exact h
    · apply fill
      apply h.put
      intro k hk
      rcases List.mem_append.mp hk with hk | hk
      · exact h id k (keysAt_of_node? hnode ▸ hk)
      · rwa [List.mem_singleton.mp hk]

theorem addKey (h : s.KeysNamed) : (s.addKey id key origin).store.KeysNamed := by
  unfold Store.addKey
  split
  · exact h
  · rename_i root hjoin
    obtain ⟨hkey, -⟩ := Id.join_eq_ok_iff.mp hjoin
    split
    · exact h.addKeyAt ‹_› hkey root
    · exact h
    · exact h.add.addKeyAt (by rw [node?_add, if_pos rfl]) hkey root

theorem removeKey (h : s.KeysNamed) : (s.removeKey id key origin).store.KeysNamed := by
  unfold Store.removeKey
  split
  · exact h
  · split
    · exact h
    · unfold removeKeyAt
      split
      · exact h
      · split
        · exact h
        · exact (h.put_sublist ‹_› List.erase_sublist).eraseAll _

end KeysNamed

end Store

/-! ## Runs -/

namespace Quiet

variable {q : Quiet}

theorem keysNamed_step (h : q.store.KeysNamed) (change : Change) :
    (q.step change).2.store.KeysNamed := by
  cases change with
  | set id payload origin => exact h.write
  | setValue value origin => exact h.write
  | declare id payload access => exact h.declare
  | remove id origin => exact h.remove
  | removeWithToken id token origin => exact h.removeWithToken token
  | declareContainer schema =>
    rw [step_declareContainer]
    split
    · exact h
    · dsimp only
      split
      · exact h.declare
      · exact fun id => h.declare id
  | dropSchema id => exact fun x => h x
  | addKey container key origin => exact h.addKey
  | removeKey container key origin => exact h.removeKey

theorem keysNamed_after (changes : List Change) : (Quiet.after {} changes).store.KeysNamed := by
  have (q : Quiet) (h : q.store.KeysNamed) : (q.after changes).store.KeysNamed := by
    induction changes generalizing q with
    | nil => exact h
    | cons change rest ih => exact ih _ (keysNamed_step h change)
  exact this {} Store.keysNamed_empty

end Quiet

end ValueTree
