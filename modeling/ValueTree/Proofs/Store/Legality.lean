import ValueTree.Proofs.Payload.Repeat
import ValueTree.Proofs.Store.Edits

/-!
# Legal payloads

Payloads come into a store by assignments, which let in only what is legal, and by templates, which
are not looked at. So every payload is legal that no template brought in as it stands.
-/

namespace ValueTree

/-- The template has this value for the instance of some key. -/
def Schema.Gives (schema : Schema) (value : Value) : Prop :=
  ∃ entry ∈ schema.template, ∃ key,
    value.id = (entry.instantiate key).id ∧ value.payload = (entry.instantiate key).payload

/-- The payload is legal, or a template of these schemas brought it in. -/
def Value.Lawful (declared : List Schema) (value : Value) : Prop :=
  value.payload.Legal ∨ ∃ schema ∈ declared, schema.Gives value

namespace Store

/-! ## Reachable stores -/

/-- The stores that changes lead to, one after the other, with no schemas but these. -/
inductive Reachable (declared : List Schema) : Store → Prop
  | empty : Reachable declared {}
  | step {s t : Store} : Reachable declared s → s.Step declared t → Reachable declared t

/-- Every value is lawful, and no other schemas are there. -/
structure Stocked (declared : List Schema) (s : Store) : Prop where
  value {id : Id} {node : Node} : s.node? id = some node → node.value.Lawful declared
  schema {id : Id} {schema : Schema} : s.schema? id = some schema → schema ∈ declared

namespace Stocked

variable {declared : List Schema} {s t : Store} {id : Id} {node : Node} {value : Value}

theorem empty : Stocked declared {} where
  value h := by simp at h
  schema h := by simp at h

theorem put (h : s.Stocked declared) (hvalue : node.value.Lawful declared) :
    (s.put id node).Stocked declared where
  value {x n} hx := by
    rw [node?_put] at hx
    split at hx
    · exact Option.some.inj hx ▸ hvalue
    · exact h.value hx
  schema hx := h.schema hx

theorem add (h : s.Stocked declared) (hvalue : value.Lawful declared) :
    (s.add value).Stocked declared where
  value {x n} hx := by
    rw [node?_add] at hx
    split at hx
    · exact Option.some.inj hx ▸ hvalue
    · exact h.value hx
  schema hx := h.schema hx

/-- A value that keeps its id stays lawful with a new payload if the payload is legal. -/
theorem revalue (h : s.Stocked declared) (hnode : s.node? id = some node)
    (hid : value.id = node.id)
    (hpayload : value.payload = node.value.payload ∨ value.payload.Legal) :
    value.Lawful declared := by
  rcases hpayload with hsame | hlegal
  · unfold Value.Lawful Schema.Gives
    rw [hid, hsame]
    exact h.value hnode
  · exact Or.inl hlegal

theorem edit (h : s.Stocked declared) (he : s.Edit declared t) : t.Stocked declared := by
  cases he with
  | revalue hnode hid hpayload => exact h.put (h.revalue hnode hid hpayload)
  | rekey keys hnode =>
    have hvalue := h.value hnode
    exact h.put hvalue
  | add _ horigin =>
    apply h.add
    rcases horigin with hlegal | ⟨container, key, schema, hschema, hvalue⟩
    · exact Or.inl hlegal
    · obtain ⟨entry, hentry, rfl⟩ := List.mem_map.mp hvalue
      exact Or.inr ⟨schema, h.schema hschema, entry, hentry, key, rfl, rfl⟩
  | erase id =>
    constructor
    · intro x n hx
      rw [node?_erase] at hx
      split at hx
      · cases hx
      · exact h.value hx
    · intro x schema hx
      rw [schema?_erase] at hx
      split at hx
      · cases hx
      · exact h.schema hx
  | putSchema hschema =>
    refine ⟨h.value, fun {x found} hx => ?_⟩
    rw [schema?_putSchema] at hx
    split at hx
    · exact Option.some.inj hx ▸ hschema
    · exact h.schema hx
  | dropSchema id =>
    refine ⟨h.value, fun {x found} hx => ?_⟩
    rw [schema?_dropSchema] at hx
    split at hx
    · cases hx
    · exact h.schema hx

theorem edits (h : s.Stocked declared) (he : s.Edits declared t) : t.Stocked declared := by
  induction he with
  | refl => exact h
  | tail _ hstep ih => exact ih.edit hstep

end Stocked

theorem Reachable.stocked {declared : List Schema} {s : Store} (h : Reachable declared s) :
    s.Stocked declared := by
  induction h with
  | empty => exact .empty
  | step _ hstep ih => exact ih.edits hstep.edits

theorem Reachable.indexed {declared : List Schema} {s : Store} (h : Reachable declared s) :
    s.Indexed := by
  induction h with
  | empty => exact .empty
  | step _ hstep ih => exact ih.edits hstep.edits

/-! ## Repeats -/

section

variable {s : Store} {id : Id} {node : Node}

theorem assignAt_self (origin : Origin) (hlegal : node.value.payload.Legal)
    (hkind : node.value.kind.isStructural = false) :
    s.assignAt id node node.value.payload origin = s.unchanged .sameValue := by
  have hassign : node.value.assign node.value.payload = .ok (.sameValue, node.value) :=
    Value.assign_eq_ok.mpr ⟨_, Payload.assign_self hlegal hkind, rfl⟩
  simp only [assignAt, hassign]

theorem write_self {access : Access} {origin : Origin} (hnode : s.node? id = some node)
    (hlegal : node.value.payload.Legal) (hkind : node.value.kind.isStructural = false)
    (hmay : origin = .local → node.value.access = .readWrite) :
    s.write id node.value.payload access origin = s.unchanged .sameValue := by
  have hallowed : ¬(origin = .local && node.value.isReadOnly) := by
    intro h
    obtain ⟨hlocal, honly⟩ : origin = .local ∧ node.value.access = .readOnly := by
      simpa [Value.isReadOnly] using h
    rw [hmay hlocal] at honly
    cases honly
  simp only [write, hnode]
  rw [if_neg hallowed]
  exact assignAt_self origin hlegal hkind

theorem write_readOnly {payload : Payload} {access : Access} (hnode : s.node? id = some node)
    (honly : node.value.access = .readOnly) :
    s.write id payload access .local = s.failed (.rejected id .access) := by
  simp [write, hnode, Value.isReadOnly, honly]

end

/-- What is true of the payloads of a store that these schemas were declared in. -/
structure PayloadsLegal (declared : List Schema) (s : Store) : Prop where
  /-- A payload that is not legal is still as a template gave it to this very id. -/
  stored {id : Id} {value : Value} : s.get? id = some value →
    value.payload.Legal ∨ ∃ schema ∈ declared, schema.Gives value
  /-- With legal templates nothing else gets in. -/
  all : (∀ schema ∈ declared, ∀ entry ∈ schema.template, entry.payload.Legal) →
    ∀ {id : Id} {value : Value}, s.get? id = some value → value.payload.Legal
  /-- A legal payload that is written once more is a repeat for all who may write. -/
  repeated {id : Id} {value : Value} {origin : Origin} :
    s.get? id = some value → value.payload.Legal → value.kind.isStructural = false →
      (origin = .local → value.access = .readWrite) →
        s.set id value.payload origin = s.unchanged .sameValue ∧ ∀ access,
          s.setValue { id, access, payload := value.payload } origin = s.unchanged .sameValue
  redeclared {id : Id} {value : Value} {access : Access} :
    s.get? id = some value → value.payload.Legal → value.kind.isStructural = false →
      (s.declare id value.payload access).result = .ok .sameValue ∧
        (s.declare id value.payload access).events = []
  /-- Who may not write is told so, even if it is a repeat. -/
  refused {id : Id} {value : Value} {payload : Payload} : s.get? id = some value →
    value.access = .readOnly → s.set id payload .local = s.failed (.rejected id .access)

theorem get?_eq_some {s : Store} {id : Id} {value : Value} :
    s.get? id = some value ↔ ∃ node, s.node? id = some node ∧ node.value = value :=
  Option.map_eq_some_iff

/-- However a store was built, whoever acted between two changes, its payloads are legal, but for
what templates bring in. -/
theorem Reachable.payloadsLegal {declared : List Schema} {s : Store} (h : Reachable declared s) :
    s.PayloadsLegal declared where
  stored hget := by
    obtain ⟨node, hnode, rfl⟩ := get?_eq_some.mp hget
    exact h.stocked.value hnode
  all htemplates id value hget := by
    obtain ⟨node, hnode, rfl⟩ := get?_eq_some.mp hget
    rcases h.stocked.value hnode with hlegal | ⟨schema, hschema, entry, hentry, key, -, hpayload⟩
    · exact hlegal
    · rw [hpayload]
      exact htemplates schema hschema entry hentry
  repeated hget hlegal hkind hmay := by
    obtain ⟨node, hnode, rfl⟩ := get?_eq_some.mp hget
    exact ⟨write_self hnode hlegal hkind hmay, fun _ => write_self hnode hlegal hkind hmay⟩
  redeclared {id value access} hget hlegal hkind := by
    obtain ⟨node, hnode, rfl⟩ := get?_eq_some.mp hget
    -- The access mode is settled first, and the payload is the same afterwards.
    let own : Node := { node with value := { node.value with access } }
    have hself : (s.put id own).assignAt id own own.value.payload .local = _ :=
      assignAt_self .local hlegal hkind
    simp only [Store.declare, hnode]
    exact ⟨congrArg Outcome.result hself, congrArg Outcome.events hself⟩
  refused hget honly := by
    obtain ⟨node, hnode, rfl⟩ := get?_eq_some.mp hget
    exact write_readOnly hnode honly

end Store

/-! ## Runs -/

namespace Quiet

/-- The schemas of the containers that are declared. -/
def declaredBy : List Change → List Schema
  | [] => []
  | .declareContainer schema :: rest => schema :: declaredBy rest
  | _ :: rest => declaredBy rest

theorem reachable_step {declared : List Schema} {q : Quiet} (h : q.store.Reachable declared)
    {change : Change} (hdeclared : ∀ schema, change = .declareContainer schema →
      schema ∈ declared) : (q.step change).2.store.Reachable declared := by
  cases change with
  | set id payload origin => exact h.step (.write ..)
  | setValue value origin => exact h.step (.write ..)
  | declare id payload access => exact h.step (.declare ..)
  | remove id origin => exact h.step (.remove ..)
  | removeWithToken id token origin => exact h.step (.removeWithToken ..)
  | declareContainer schema =>
    rw [step_declareContainer]
    split
    · exact h
    · dsimp only
      split
      · exact h.step (.declare ..)
      · exact (h.step (.declare ..)).step (.putSchema (hdeclared schema rfl))
  | dropSchema id => exact h.step (.dropSchema id)
  | addKey container key origin => exact h.step (.addKey ..)
  | removeKey container key origin => exact h.step (.removeKey ..)

theorem reachable_after (changes : List Change) :
    (Quiet.after {} changes).store.Reachable (declaredBy changes) := by
  -- Schemas that come later do no harm before, so one list of them serves the whole run.
  have hrun {declared : List Schema} (q : Quiet) (h : q.store.Reachable declared)
      (hdeclared : ∀ schema ∈ declaredBy changes, schema ∈ declared) :
      (q.after changes).store.Reachable declared := by
    induction changes generalizing q with
    | nil => exact h
    | cons change rest ih =>
      refine ih _ (reachable_step h ?_) ?_
      · rintro schema rfl
        exact hdeclared schema List.mem_cons_self
      · intro schema hschema
        apply hdeclared
        cases change <;> first | exact List.mem_cons_of_mem _ hschema | exact hschema
  exact hrun {} .empty fun _ h => h

/-- Writing what is there already is refused to who may not write, and a template brings in a set
that is not sorted. -/
theorem repeat_refused :
    let s := (Quiet.after {} [.declare ⟨["a"]⟩ (.bool true) .readOnly]).store
    let t := (Quiet.after {} [
      .declareContainer ⟨⟨["c"]⟩, .ordered, [⟨⟨["c", "+", "s"]⟩, .set ["b", "a"], .readWrite⟩]⟩,
      .addKey ⟨["c"]⟩ "k" .local]).store
    (s.get? ⟨["a"]⟩).map (·.payload) = some (.bool true) ∧
      (s.set ⟨["a"]⟩ (.bool true) .local).result.toOption = none ∧
        (t.get? ⟨["c", "k", "s"]⟩).map (·.payload) = some (.set ["b", "a"]) ∧
          ¬(Payload.set ["b", "a"]).Legal := by
  decide +kernel

/-- A number out of a template, legal and within its bounds, and a sorted set. -/
theorem payloadsLegal_instances :
    let level : Payload := .signed ⟨.i8, 3, 0, 9⟩
    let changes : List Change := [
      .declareContainer ⟨⟨["c"]⟩, .ordered, [⟨⟨["c", "+", "level"]⟩, level, .readWrite⟩]⟩,
      .addKey ⟨["c"]⟩ "k" .remote, .set ⟨["s"]⟩ (.set ["b", "a", "b"]) .local]
    let s := (Quiet.after {} changes).store
    level.Legal ∧ s.set ⟨["c", "k", "level"]⟩ level .local = s.unchanged .sameValue ∧
      (Payload.set ["a", "b"]).Legal ∧
        s.set ⟨["s"]⟩ (.set ["a", "b"]) .remote = s.unchanged .sameValue := by
  intro level changes s
  have hs : s.PayloadsLegal (declaredBy changes) := (reachable_after changes).payloadsLegal
  have htemplates : ∀ schema ∈ declaredBy changes, ∀ entry ∈ schema.template,
      entry.payload.Legal := by
    decide +kernel
  have hlevel : s.get? ⟨["c", "k", "level"]⟩ = some ⟨⟨["c", "k", "level"]⟩, .readWrite, level⟩ := by
    decide +kernel
  have hset : s.get? ⟨["s"]⟩ = some ⟨⟨["s"]⟩, .readWrite, .set ["a", "b"]⟩ := by
    decide +kernel
  refine ⟨hs.all htemplates hlevel, ?_, hs.all htemplates hset, ?_⟩
  · exact (hs.repeated hlevel (hs.all htemplates hlevel) rfl fun _ => rfl).1
  · exact (hs.repeated hset (hs.all htemplates hset) rfl fun _ => rfl).1

end Quiet

end ValueTree
