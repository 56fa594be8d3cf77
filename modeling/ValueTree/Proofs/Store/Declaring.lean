import ValueTree.Proofs.Store.Verdict

/-!
# What a declaration leaves

A declaration writes one node, the one of its id, and leaves all others alone. Whether it is refused
depends on the payload that it finds there.
-/

namespace ValueTree

namespace Store

variable {s t : Store} {id x : Id} {payload result : Payload} {access : Access} {status : SetStatus}

/-- Well-formed stores are the same if they have the same nodes and schemas. -/
theorem WellFormed.ext (hs : s.WellFormed) (ht : t.WellFormed) (hnode : ∀ x, s.node? x = t.node? x)
    (hschema : ∀ x, s.schema? x = t.schema? x) : s = t := by
  apply ext_parts hnode _ hschema
  intro x
  rw [hs.index_iff, ht.index_iff, has, has, hnode]

/-- The payload that a write finds under an id. -/
def found (s : Store) (id : Id) : Payload := (s.payload? id).getD .unset

theorem found_of_node? {node : Node} (h : s.node? id = some node) :
    s.found id = node.value.payload := by
  simp [found, payload?, get?, h]

theorem found_of_none (h : s.node? id = none) : s.found id = .unset := by
  simp [found, payload?, get?, h]

theorem found_congr (h : t.node? x = s.node? x) : t.found x = s.found x := by
  rw [found, payload?, get?, h]
  rfl

theorem result_assignAt {node : Node} {origin : Origin}
    (h : node.value.payload.assign payload = .ok (status, result)) :
    (s.assignAt id node payload origin).result = .ok status := by
  have hvalue : node.value.assign payload = .ok (status, { node.value with payload := result }) :=
    Value.assign_eq_ok.mpr ⟨result, h, rfl⟩
  unfold assignAt
  simp only [hvalue]
  cases status <;> rfl

/-- A declaration is refused if the payload that it finds does not take on the new one. -/
theorem declare_isOk (access : Access) : (∃ status, (s.declare id payload access).result = .ok status) ↔
    ∃ status result, (s.found id).assign payload = .ok (status, result) := by
  unfold declare
  split
  · rename_i hnone
    rw [found_of_none hnone]
    unfold create
    split
    · rename_i e he
      simp [he, failed]
    · rename_i status result hassign
      exact ⟨fun _ => ⟨status, result, hassign⟩, fun _ => ⟨.success, rfl⟩⟩
  · rename_i node hnode
    rw [found_of_node? hnode]
    cases hassign : node.value.payload.assign payload with
    | error e =>
      have hvalue : ({ node.value with access } : Value).assign payload = .error e := by
        simp [Value.assign, hassign, Except.map]
      unfold assignAt
      simp [hvalue, failed]
    | ok out =>
      exact ⟨fun _ => ⟨out.1, out.2, rfl⟩, fun _ => ⟨out.1, result_assignAt hassign⟩⟩

theorem put_put (node node' : Node) : (s.put id node).put id node' = s.put id node' := by
  apply ext_parts
  · intro x
    simp only [node?_put]
    split <;> rfl
  · exact fun _ => Iff.rfl
  · exact fun _ => rfl

theorem store_assignAt {node : Node} (origin : Origin) (hnode : s.node? id = some node)
    (h : node.value.payload.assign payload = .ok (status, result)) :
    (s.assignAt id node payload origin).store =
      s.put id { node with value := { node.value with payload := result } } := by
  have hvalue : node.value.assign payload = .ok (status, { node.value with payload := result }) :=
    Value.assign_eq_ok.mpr ⟨result, h, rfl⟩
  unfold assignAt
  cases status with
  | success => simp only [hvalue]
  | sameValue =>
    -- The node that is put is the one that is there.
    obtain rfl := (Payload.settled_assign h).same rfl
    simp only [hvalue, unchanged]
    apply ext_parts
    · intro x
      rw [node?_put]
      split
      · subst_vars
        exact hnode
      · rfl
    · exact fun _ => Iff.rfl
    · exact fun _ => rfl

theorem store_create {origin : Origin} (h : Payload.unset.assign payload = .ok (status, result)) :
    (s.create id payload access origin).store = s.add ⟨id, access, result⟩ := by
  unfold create
  rw [h]

/-- The node of the id has the access mode and the payload that comes out, and its keys. -/
theorem WellFormed.node?_declare (h : s.WellFormed)
    (hassign : (s.found id).assign payload = .ok (status, result)) :
    (s.declare id payload access).store.node? x =
      if id = x then some ⟨⟨id, access, result⟩, s.keysAt id⟩ else s.node? x := by
  unfold Store.declare
  split
  · rename_i hnone
    rw [found_of_none hnone] at hassign
    rw [store_create hassign, node?_add, keysAt, hnone]
    rfl
  · rename_i node hnode
    rw [found_of_node? hnode] at hassign
    have hid : node.value.id = id := h.node_id hnode
    let own : Node := { node with value := { node.value with access } }
    have hown : (s.put id own).node? id = some own := by rw [node?_put, if_pos rfl]
    have hstore := store_assignAt .local hown hassign
    rw [put_put] at hstore
    refine (congrArg (·.node? x) hstore).trans ?_
    simp only [node?_put, keysAt_of_node? hnode, own, hid]

theorem node?_assignAt_ne {node : Node} {origin : Origin} (hne : id ≠ x) :
    (s.assignAt id node payload origin).store.node? x = s.node? x := by
  unfold assignAt
  split
  · rfl
  · rfl
  · rw [node?_put, if_neg hne]

theorem node?_declare_ne (hne : id ≠ x) :
    (s.declare id payload access).store.node? x = s.node? x := by
  unfold declare
  split
  · unfold create
    split
    · rfl
    · rw [node?_add, if_neg hne]
  · rw [node?_assignAt_ne hne, node?_put, if_neg hne]

theorem WellFormed.node?_declared (h : s.WellFormed)
    (hok : (s.declare id payload access).result = .ok status) :
    ∃ status result, (s.found id).assign payload = .ok (status, result) ∧
      ∀ x, (s.declare id payload access).store.node? x =
        if id = x then some ⟨⟨id, access, result⟩, s.keysAt id⟩ else s.node? x := by
  obtain ⟨status, result, hassign⟩ := (declare_isOk access).mp ⟨status, hok⟩
  exact ⟨status, result, hassign, fun x => h.node?_declare hassign⟩

theorem WellFormed.has_declared (h : s.WellFormed)
    (hok : (s.declare id payload access).result = .ok status) :
    (s.declare id payload access).store.has x = true ↔ id = x ∨ s.has x = true := by
  obtain ⟨_, _, -, hnode⟩ := h.node?_declared hok
  rw [has, hnode]
  split <;> simp [has, *]

theorem kind?_declare_ne (hne : id ≠ x) :
    (s.declare id payload access).store.kind? x = s.kind? x := by
  rw [kind?, get?, node?_declare_ne hne]
  rfl

/-- A value that has a kind keeps it. -/
theorem WellFormed.kind_declared {kind : Kind} (h : s.WellFormed)
    (hok : (s.declare id payload access).result = .ok status) (hkind : s.kind? id = some kind)
    (hset : kind ≠ .unset) : payload.kind = kind := by
  obtain ⟨node, hnode, rfl⟩ := kind?_eq_some.mp hkind
  obtain ⟨_, result, hassign, -⟩ := h.node?_declared hok
  rw [found_of_node? hnode] at hassign
  obtain ⟨hnew, hold⟩ := Payload.kind_of_assign hassign
  rw [← hnew]
  exact hold.resolve_left hset

/-! ## What is told of it -/

/-- These events tell that a value took on a payload that was declared for it. -/
structure Announced (s : Store) (id : Id) (payload : Payload) (value : Value)
    (events : List Event) : Prop where
  about : value.id = id
  told : events = [.added value .local] ∨ events = [.changed value .local]
  taken {p : Payload} : s.payload? id = some p → p.assign payload = .ok (.success, value.payload)

/-- Nothing is told of a declaration that is refused, and nothing of one that repeats what is
there. -/
theorem Indexed.declare_cases (h : s.Indexed) :
    let o := s.declare id payload access
    (o.events = [] ∧ ∀ p status, s.payload? id = some p → o.result = .ok status →
      p.assign payload = .ok (.sameValue, p)) ∨
    ∃ value, s.Announced id payload value o.events := by
  cases hnode : s.node? id with
  | none =>
    have hnone {p : Payload} : s.payload? id ≠ some p := by simp [payload?, get?, hnode]
    simp only [declare, hnode, create]
    split
    · exact Or.inl ⟨rfl, fun p status hp => absurd hp hnone⟩
    · exact Or.inr ⟨_, rfl, Or.inl rfl, fun hp => absurd hp hnone⟩
  | some node =>
    have hpayload : s.payload? id = some node.value.payload := by simp [payload?, get?, hnode]
    simp only [declare, hnode, assignAt]
    cases hassign : ({ node.value with access } : Value).assign payload with
    | error e =>
      refine Or.inl ⟨rfl, fun p status hp hresult => ?_⟩
      cases hresult
    | ok out =>
      obtain ⟨status, value⟩ := out
      obtain ⟨result, htaken, rfl⟩ := Value.assign_eq_ok.mp hassign
      cases status with
      | success =>
        refine Or.inr ⟨{ node.value with access, payload := result }, h.node_id hnode, Or.inr rfl,
          fun hp => ?_⟩
        rw [← Option.some.inj (hpayload.symm.trans hp)]
        exact htaken
      | sameValue =>
        refine Or.inl ⟨rfl, fun p status hp _ => ?_⟩
        rw [← Option.some.inj (hpayload.symm.trans hp)]
        have hsame : result = node.value.payload := (Payload.settled_assign htaken).same rfl
        exact hsame ▸ htaken

/-- A write that succeeds is told of in one event. -/
theorem Indexed.events_write {origin : Origin} (h : s.Indexed)
    (hok : (s.write id payload access origin).result = .ok .success) :
    ∃ value event, (s.write id payload access origin).events = [event] ∧
      (event = .added value origin ∨ event = .changed value origin) ∧ value.id = id := by
  cases hnode : s.node? id with
  | none =>
    simp only [write, hnode, create] at hok ⊢
    cases hassign : Payload.unset.assign payload with
    | error e => simp [hassign, failed] at hok
    | ok out => exact ⟨_, _, rfl, Or.inl rfl, rfl⟩
  | some node =>
    simp only [write, hnode] at hok ⊢
    split at hok
    · cases hok
    · rename_i hwritable
      rw [if_neg hwritable]
      unfold assignAt at hok ⊢
      cases hassign : node.value.assign payload with
      | error e => simp [hassign, failed] at hok
      | ok out =>
        obtain ⟨status, value⟩ := out
        obtain ⟨result, -, rfl⟩ := Value.assign_eq_ok.mp hassign
        cases status with
        | success => exact ⟨_, _, rfl, Or.inr rfl, h.node_id hnode⟩
        | sameValue => simp [hassign, unchanged] at hok

/-! ## Legal payloads -/

/-- Every payload is legal. -/
def AllLegal (s : Store) : Prop :=
  ∀ (x : Id) (node : Node), s.node? x = some node → node.value.payload.Legal

theorem AllLegal.found (h : s.AllLegal) (id : Id) : (s.found id).Legal := by
  cases hnode : s.node? id with
  | none => exact found_of_none hnode ▸ ⟨rfl, rfl⟩
  | some node => exact found_of_node? hnode ▸ h id node hnode

theorem AllLegal.declared (h : s.AllLegal) (hwf : s.WellFormed)
    (hok : (s.declare id payload access).result = .ok status) :
    (s.declare id payload access).store.AllLegal := by
  obtain ⟨status, result, hassign, hdeclared⟩ := hwf.node?_declared hok
  intro x node hnode
  rw [hdeclared] at hnode
  split at hnode
  · cases hnode
    cases status with
    | success => exact Payload.legal_of_assign hassign
    | sameValue => exact (Payload.settled_assign hassign).same rfl ▸ h.found id
  · exact h x node hnode

end Store

end ValueTree
