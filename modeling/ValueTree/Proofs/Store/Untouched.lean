import ValueTree.Proofs.Store.Agreement

/-!
# Changes in vain

A change that is refused, or answers that there was nothing to do, leaves the store alone. A
declaration is the exception: the access mode comes first.
-/

namespace ValueTree

/-- Nothing was done to the store, and nobody hears of it. -/
def Outcome.Idle {α : Type} (o : Outcome α) (s : Store) : Prop := o.store = s ∧ o.events = []

namespace Store

variable {s : Store} {id : Id} {node : Node} {payload : Payload} {access : Access} {origin : Origin}
  {key : String}

theorem idle_failed {α : Type} (e : StoreError) : (s.failed e : Outcome α).Idle s := ⟨rfl, rfl⟩

theorem idle_unchanged {α : Type} (answer : α) : (s.unchanged answer).Idle s := ⟨rfl, rfl⟩

/-! ## Writing -/

theorem create_idle (h : (s.create id payload access origin).result ≠ .ok .success) :
    (s.create id payload access origin).Idle s := by
  unfold create at h ⊢
  split at h
  · exact idle_failed _
  · exact absurd rfl h

theorem assignAt_idle (h : (s.assignAt id node payload origin).result ≠ .ok .success) :
    (s.assignAt id node payload origin).Idle s := by
  unfold assignAt at h ⊢
  split at h
  · exact idle_failed _
  · exact idle_unchanged _
  · exact absurd rfl h

theorem write_idle (h : (s.write id payload access origin).result ≠ .ok .success) :
    (s.write id payload access origin).Idle s := by
  unfold write at h ⊢
  split at h
  · exact create_idle h
  · split at h
    · rw [if_pos ‹_›]
      exact idle_failed _
    · rw [if_neg ‹_›]
      exact assignAt_idle h

/-- All that a declaration in vain may leave behind is its access mode. -/
theorem declare_idle (h : (s.declare id payload access).result ≠ .ok .success) :
    (s.declare id payload access).events = [] ∧
      (s.node? id = none ∧ (s.declare id payload access).store = s ∨
        ∃ node, s.node? id = some node ∧ (s.declare id payload access).store =
          s.put id { node with value := { node.value with access } }) := by
  unfold declare at h ⊢
  split at h
  · rename_i hnone
    obtain ⟨hstore, hevents⟩ := create_idle h
    exact ⟨hevents, Or.inl ⟨hnone, hstore⟩⟩
  · rename_i node hnode
    obtain ⟨hstore, hevents⟩ := assignAt_idle h
    exact ⟨hevents, Or.inr ⟨node, hnode, hstore⟩⟩

/-- A declaration of the payload that is there still settles who may write it. -/
theorem access_declare_same (h : (s.declare id payload access).result = .ok .sameValue) :
    ((s.declare id payload access).store.get? id).map (·.access) = some access := by
  have hvain : (s.declare id payload access).result ≠ .ok .success := by
    rw [h]
    nofun
  obtain ⟨-, ⟨hnone, -⟩ | ⟨node, -, hstore⟩⟩ := declare_idle hvain
  · unfold declare create at h
    simp only [hnone] at h
    split at h <;> cases h
  · rw [hstore, get?, node?_put, if_pos rfl]
    rfl

/-! ## Removing -/

theorem remove_idle (h : (s.remove id origin).result ≠ .ok true) : (s.remove id origin).Idle s := by
  unfold remove at h ⊢
  split at h
  · exact absurd rfl h
  · rw [if_neg ‹_›]
    exact idle_unchanged _

theorem removeWithToken_idle {token : Token}
    (h : (s.removeWithToken id token origin).result ≠ .ok true) :
    (s.removeWithToken id token origin).Idle s := by
  unfold removeWithToken at h ⊢
  split at h
  · rw [if_pos ‹_›]
    exact remove_idle h
  · rw [if_neg ‹_›]
    exact idle_failed _

/-! ## Containers -/

theorem addKeyAt_idle {root : Id} (h : (s.addKeyAt id node key root origin).result ≠ .ok true) :
    (s.addKeyAt id node key root origin).Idle s := by
  unfold addKeyAt at h ⊢
  split at h
  · rw [if_pos ‹_›]
    exact idle_failed _
  · rw [if_neg ‹_›]
    split at h
    · rw [if_pos ‹_›]
      exact idle_unchanged _
    · exact absurd rfl h

/-- A container that has just come into being takes every key. -/
theorem addKeyAt_fresh {root : Id} :
    (s.addKeyAt id { value := { id, payload := .container .ordered } } key root origin).result =
      .ok true := rfl

theorem addKey_idle (h : (s.addKey id key origin).result ≠ .ok true) :
    (s.addKey id key origin).Idle s := by
  unfold addKey at h ⊢
  cases hjoin : id.join key with
  | error fault => exact idle_failed _
  | ok root =>
    simp only [hjoin] at h ⊢
    cases hnode : s.node? id with
    | some node =>
      simp only [hnode] at h ⊢
      exact addKeyAt_idle h
    | none =>
      cases origin with
      | «local» => exact idle_failed _
      | remote =>
        simp only [hnode] at h
        exact absurd addKeyAt_fresh h

theorem removeKeyAt_idle {root : Id}
    (h : (s.removeKeyAt id node key root origin).result ≠ .ok true) :
    (s.removeKeyAt id node key root origin).Idle s := by
  unfold removeKeyAt at h ⊢
  split at h
  · rw [if_pos ‹_›]
    exact idle_failed _
  · rw [if_neg ‹_›]
    split at h
    · rw [if_pos ‹_›]
      exact idle_unchanged _
    · exact absurd rfl h

theorem removeKey_idle (h : (s.removeKey id key origin).result ≠ .ok true) :
    (s.removeKey id key origin).Idle s := by
  unfold removeKey at h ⊢
  split at h
  · exact idle_failed _
  · split at h
    · exact idle_failed _
    · exact removeKeyAt_idle h

end Store

/-! ## Any change -/

/-- The answer says that nothing was done. -/
def inVain : Except StoreError Answer → Bool
  | .error _ | .ok (.status .sameValue) | .ok (.bool false) => true
  | _ => false

/-- The id whose access mode a change settles. -/
def Change.declares? : Change → Option Id
  | declare id _ _ => some id
  | declareContainer schema => some schema.id
  | _ => none

namespace Quiet

variable {q : Quiet} {change : Change}

/-- What a change in vain leaves as it was. -/
structure Untouched (q : Quiet) (change : Change) : Prop where
  /-- Nobody hears of anything. -/
  events : (q.step change).2.events = q.events
  /-- The ids, with their payloads and keys. -/
  contents : (q.step change).2.store.Agrees q.store
  index : (q.step change).2.store.index = q.store.index
  schemas : (q.step change).2.store.templates = q.store.templates
  /-- Access modes as well, except of the id that is declared. -/
  nodes {id : Id} : change.declares? ≠ some id →
    (q.step change).2.store.node? id = q.store.node? id
  all : change.declares? = none → (q.step change).2.store = q.store
  /-- A declaration of what is there already settles who may write it. -/
  redeclared {id : Id} {payload : Payload} {access : Access} :
    change = .declare id payload access → (q.step change).1 = .ok (.status .sameValue) →
      ((q.step change).2.store.get? id).map (·.access) = some access

/-- All that a change in vain may leave behind is an access mode. -/
theorem step_inVain (h : inVain (q.step change).1 = true) :
    (q.step change).2 = q ∨ ∃ id node access, change.declares? = some id ∧
      q.store.node? id = some node ∧
        (q.step change).2 = ⟨q.store.put id { node with value := { node.value with access } },
          q.events⟩ := by
  have hidle {α : Type} {o : Outcome α} (ho : o.Idle q.store) : (q.accept o).2 = q := by
    obtain ⟨hstore, hevents⟩ := ho
    simp [accept, hstore, hevents]
  have hstatus {result : Except StoreError SetStatus} (hr : inVain (result.map .status) = true) :
      result ≠ .ok .success := by
    rintro rfl
    cases hr
  have hbool {result : Except StoreError Bool} (hr : inVain (result.map .bool) = true) :
      result ≠ .ok true := by
    rintro rfl
    cases hr
  have hdeclare {id : Id} {payload : Payload} {access : Access}
      (hr : (q.store.declare id payload access).result ≠ .ok .success) :
      (q.accept (q.store.declare id payload access)).2 = q ∨ ∃ node, q.store.node? id = some node ∧
        (q.accept (q.store.declare id payload access)).2 =
          ⟨q.store.put id { node with value := { node.value with access } }, q.events⟩ := by
    obtain ⟨hevents, ⟨-, hstore⟩ | ⟨node, hnode, hstore⟩⟩ := Store.declare_idle hr
    · exact Or.inl (hidle ⟨hstore, hevents⟩)
    · exact Or.inr ⟨node, hnode, by simp [accept, hstore, hevents]⟩
  cases change with
  | set id payload origin => exact Or.inl (hidle (Store.write_idle (hstatus h)))
  | setValue value origin => exact Or.inl (hidle (Store.write_idle (hstatus h)))
  | declare id payload access =>
    rcases hdeclare (hstatus h) with hsame | ⟨node, hnode, hput⟩
    · exact Or.inl hsame
    · exact Or.inr ⟨id, node, access, rfl, hnode, hput⟩
  | remove id origin => exact Or.inl (hidle (Store.remove_idle (hbool h)))
  | removeWithToken id token origin => exact Or.inl (hidle (Store.removeWithToken_idle (hbool h)))
  | declareContainer schema =>
    -- The schema is put only after the declaration went through, which is not in vain.
    rw [step_declareContainer] at h ⊢
    split at h
    · exact Or.inl rfl
    · dsimp only at h ⊢
      split at h
      · rename_i e herror
        rcases hdeclare (by rw [herror]; simp) with hsame | ⟨node, hnode, hput⟩
        · exact Or.inl hsame
        · exact Or.inr ⟨schema.id, node, .readWrite, rfl, hnode, hput⟩
      · cases h
  | dropSchema id => cases h
  | addKey container key origin => exact Or.inl (hidle (Store.addKey_idle (hbool h)))
  | removeKey container key origin => exact Or.inl (hidle (Store.removeKey_idle (hbool h)))

/-- Whatever a store holds, a change in vain changes nothing but the access mode of an id that is
declared. -/
theorem untouched (h : inVain (q.step change).1 = true) : q.Untouched change := by
  have hredeclared {id : Id} {payload : Payload} {access : Access}
      (hchange : change = .declare id payload access)
      (hsame : (q.step change).1 = .ok (.status .sameValue)) :
      ((q.step change).2.store.get? id).map (·.access) = some access := by
    subst hchange
    have hresult : (q.store.declare id payload access).result.map Answer.status =
        .ok (.status .sameValue) := hsame
    apply Store.access_declare_same
    cases hr : (q.store.declare id payload access).result with
    | error e => simp [hr, Except.map] at hresult
    | ok status => simpa [hr, Except.map] using hresult
  rcases step_inVain h with hsame | ⟨id, node, access, hid, hnode, hput⟩
  · constructor
    · rw [hsame]
    · rw [hsame]
      exact fun _ => rfl
    · rw [hsame]
    · rw [hsame]
    · intro id _
      rw [hsame]
    · intro _
      rw [hsame]
    · exact hredeclared
  · constructor
    · rw [hput]
    · rw [hput]
      exact Store.Agrees.put_left (fun _ => rfl) hnode rfl
    · rw [hput, Store.index_put]
    · rw [hput]
      rfl
    · intro x hx
      rw [hput, Store.node?_put, if_neg]
      rintro rfl
      exact hx hid
    · intro hnone
      cases hnone.symm.trans hid
    · exact hredeclared

/-- The access mode comes first, so it is replaced although nothing else is new. -/
theorem redeclared_readOnly :
    let q := Quiet.after {} [.declare ⟨["a"]⟩ (.bool true) .readWrite]
    let change := Change.declare ⟨["a"]⟩ (.bool true) .readOnly
    (q.step change).1.toOption = some (.status .sameValue) ∧
      (q.store.get? ⟨["a"]⟩).map (·.access) = some .readWrite ∧
        ((q.step change).2.store.get? ⟨["a"]⟩).map (·.access) = some .readOnly := by
  decide +kernel

/-- A declaration that is refused, a repeated key, and a removal of what is not there. -/
theorem untouched_instances :
    let q := Quiet.after {} [.declareContainer ⟨⟨["c"]⟩, .ordered, []⟩, .addKey ⟨["c"]⟩ "k" .local]
    (q.step (.declare ⟨["c"]⟩ (.bool true) .readOnly)).2.store.Agrees q.store ∧
      (q.step (.addKey ⟨["c"]⟩ "k" .remote)).2.store = q.store ∧
        (q.step (.remove ⟨["x"]⟩ .local)).2.events = q.events := by
  intro q
  have hrefused : q.Untouched (.declare ⟨["c"]⟩ (.bool true) .readOnly) :=
    untouched (by decide +kernel)
  have hrepeated : q.Untouched (.addKey ⟨["c"]⟩ "k" .remote) := untouched (by decide +kernel)
  have hmissing : q.Untouched (.remove ⟨["x"]⟩ .local) := untouched (by decide +kernel)
  exact ⟨hrefused.contents, hrepeated.all rfl, hmissing.events⟩

end Quiet

end ValueTree
