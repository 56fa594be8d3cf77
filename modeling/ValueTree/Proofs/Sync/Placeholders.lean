import ValueTree.Proofs.Store.KeyNames
import ValueTree.Sync.Client

/-!
# Placeholders

Who asks for an id that is not there lays an open value that says nothing in its place. Directives
for containers are carried out around such placeholders as if they were not there, with one
exception: a container that is itself only a placeholder does not become one, as it would if nothing
were there, so it takes no keys.
-/

namespace ValueTree

/-- What holds the place of an id until the authority answers. -/
def Value.placeholder (id : Id) : Value := { id, payload := .unset }

@[simp]
theorem Value.id_placeholder (id : Id) : (Value.placeholder id).id = id := rfl

namespace Store

variable {s t : Store} {A : Id → Prop} {x container root : Id} {node : Node} {value : Value}
  {key : String} {origin : Origin}

/-! ## Asking -/

/-- Lays placeholders for the ids that are not there. -/
def expect (s : Store) (ids : List Id) : Store :=
  ids.foldl (fun s id => if !id.isRoot && !s.has id then s.add (.placeholder id) else s) s

/-- An id that is asked for and not there. -/
def Awaits (s : Store) (ids : List Id) (x : Id) : Prop :=
  x ∈ ids ∧ x.isRoot = false ∧ s.has x = false

instance (ids : List Id) : Decidable (s.Awaits ids x) := inferInstanceAs (Decidable (_ ∧ _))

theorem not_awaits_of_mem_keysAt {ids : List Id} (h : key ∈ s.keysAt x) : ¬s.Awaits ids x := by
  rintro ⟨-, -, hhas⟩
  simp [keysAt, has_eq_false.mp hhas] at h

theorem expect_cons (id : Id) (ids : List Id) : s.expect (id :: ids) =
    (if !id.isRoot && !s.has id then s.add (.placeholder id) else s).expect ids := rfl

theorem declare_placeholder (h : s.has x = false) :
    s.declare x .unset .readWrite = {
      result := .ok .success
      store := s.add (.placeholder x)
      events := [.added (.placeholder x) .local] } := by
  rw [declare, has_eq_false.mp h]
  rfl

/-! ## Placeholders over a store -/

/-- `t` is `s` with placeholders at some ids, whatever `s` has there. -/
structure Overlaid (A : Id → Prop) (s t : Store) : Prop where
  held {x : Id} : A x → t.node? x = some { value := .placeholder x } ∧ x ∈ t.index
  plain {x : Id} : ¬A x → t.node? x = s.node? x ∧ (x ∈ t.index ↔ x ∈ s.index)
  schema? (x : Id) : t.schema? x = s.schema? x

namespace Overlaid

theorem congr {B : Id → Prop} (h : Overlaid A s t) (hsame : ∀ x, A x ↔ B x) : Overlaid B s t where
  held hx := h.held ((hsame _).mpr hx)
  plain hx := h.plain (hx ∘ (hsame _).mp)
  schema? := h.schema?

theorem trans {B : Id → Prop} {u : Store} (h : Overlaid A s t) (h' : Overlaid B t u) :
    Overlaid (fun x => A x ∨ B x) s u where
  held {x} hx := by
    by_cases hB : B x
    · exact h'.held hB
    · rw [(h'.plain hB).1, (h'.plain hB).2]
      exact h.held (hx.resolve_right hB)
  plain {x} hx := by
    rw [not_or] at hx
    rw [(h'.plain hx.2).1, (h'.plain hx.2).2]
    exact h.plain hx.1
  schema? x := (h'.schema? x).trans (h.schema? x)

theorem has_of_held (h : Overlaid A s t) (hx : A x) : t.has x = true := by
  rw [has, (h.held hx).1, Option.isSome_some]

theorem has_of_plain (h : Overlaid A s t) (hx : ¬A x) : t.has x = s.has x := by
  rw [has, has, (h.plain hx).1]

theorem keysAt_of_plain (h : Overlaid A s t) (hx : ¬A x) : t.keysAt x = s.keysAt x := by
  rw [keysAt, keysAt, (h.plain hx).1]

theorem put (h : Overlaid A s t) (hcontainer : ¬A container) (node : Node) :
    Overlaid A (s.put container node) (t.put container node) where
  held {x} hx := by
    have hne : container ≠ x := fun h => hcontainer (h ▸ hx)
    rw [node?_put, if_neg hne]
    exact h.held hx
  plain {x} hx := by
    rw [node?_put, node?_put, (h.plain hx).1]
    exact ⟨rfl, (h.plain hx).2⟩
  schema? := h.schema?

theorem add (h : Overlaid A s t) (hvalue : ¬A value.id) :
    Overlaid A (s.add value) (t.add value) where
  held {x} hx := by
    have hne : value.id ≠ x := fun h => hvalue (h ▸ hx)
    rw [node?_add, if_neg hne, mem_index_add]
    exact (h.held hx).imp_right Or.inr
  plain {x} hx := by
    rw [node?_add, node?_add, (h.plain hx).1, mem_index_add, mem_index_add, (h.plain hx).2]
    exact ⟨rfl, Iff.rfl⟩
  schema? := h.schema?

/-- What comes to stand under a placeholder does not show. -/
theorem add_under (h : Overlaid A s t) (hvalue : A value.id) : Overlaid A (s.add value) t where
  held := h.held
  plain {x} hx := by
    have hne : value.id ≠ x := fun h => hx (h ▸ hvalue)
    rw [node?_add, if_neg hne, mem_index_add, or_iff_right hne]
    exact h.plain hx
  schema? := h.schema?

theorem fill (h : Overlaid A s t) (values : List Value) :
    Overlaid A (s.fill origin values).1 (t.fill origin values).1 := by
  induction values generalizing s t with
  | nil => exact h
  | cons value rest ih =>
    by_cases hheld : A value.id
    · rw [fill_cons_old (h.has_of_held hheld)]
      cases hhas : s.has value.id with
      | true =>
        rw [fill_cons_old hhas]
        exact ih h
      | false =>
        rw [fill_cons_new hhas]
        exact ih (h.add_under hheld)
    · have hsame := h.has_of_plain hheld
      cases hhas : s.has value.id with
      | true =>
        rw [fill_cons_old hhas, fill_cons_old (hsame.trans hhas)]
        exact ih h
      | false =>
        rw [fill_cons_new hhas, fill_cons_new (hsame.trans hhas)]
        exact ih (h.add hheld)

theorem addKeyAt (h : Overlaid A s t) (hcontainer : ¬A container) :
    (t.addKeyAt container node key root origin).result =
        (s.addKeyAt container node key root origin).result ∧
      Overlaid A (s.addKeyAt container node key root origin).store
        (t.addKeyAt container node key root origin).store := by
  have hvalues : t.instanceValues container key root = s.instanceValues container key root := by
    rw [instanceValues, instanceValues, h.schema?]
  unfold Store.addKeyAt
  split
  · exact ⟨rfl, h⟩
  · split
    · exact ⟨rfl, h⟩
    · rw [hvalues]
      exact ⟨rfl, (h.put hcontainer _).fill _⟩

theorem addKey (h : Overlaid A s t) (hcontainer : ¬A container) (key : String) (origin : Origin) :
    (t.addKey container key origin).result = (s.addKey container key origin).result ∧
      Overlaid A (s.addKey container key origin).store
        (t.addKey container key origin).store := by
  unfold Store.addKey
  rw [(h.plain hcontainer).1]
  split
  · exact ⟨rfl, h⟩
  · split
    · exact h.addKeyAt hcontainer
    · exact ⟨rfl, h⟩
    · exact (h.add hcontainer).addKeyAt hcontainer

/-- What lies below an id goes from both. -/
theorem node?_eraseAll_subtree (h : Overlaid A s t) (hx : ¬A x) :
    (t.eraseAll (t.subtree root)).node? x = (s.eraseAll (s.subtree root)).node? x := by
  simp only [node?_eraseAll, mem_subtree, (h.plain hx).1, (h.plain hx).2]

theorem removeKey (h : Overlaid A s t) (hcontainer : ¬A container) (key : String)
    (origin : Origin) :
    (t.removeKey container key origin).result = (s.removeKey container key origin).result ∧
      ∀ x, ¬A x → (t.removeKey container key origin).store.node? x =
        (s.removeKey container key origin).store.node? x := by
  have hsame (x : Id) (hx : ¬A x) : t.node? x = s.node? x := (h.plain hx).1
  unfold Store.removeKey
  rw [hsame container hcontainer]
  split
  · exact ⟨rfl, hsame⟩
  · split
    · exact ⟨rfl, hsame⟩
    · unfold removeKeyAt
      split
      · exact ⟨rfl, hsame⟩
      · split
        · exact ⟨rfl, hsame⟩
        · exact ⟨rfl, fun x hx => (h.put hcontainer _).node?_eraseAll_subtree hx⟩

end Overlaid

theorem overlaid_add (s : Store) (id : Id) :
    Overlaid (· = id) s (s.add (.placeholder id)) where
  held {x} hx := by
    subst hx
    rw [node?_add, mem_index_add, Value.id_placeholder, if_pos rfl]
    exact ⟨rfl, Or.inl rfl⟩
  plain {x} hx := by
    rw [node?_add, mem_index_add, Value.id_placeholder, if_neg (Ne.symm hx),
      or_iff_right (Ne.symm hx)]
    exact ⟨rfl, Iff.rfl⟩
  schema? _ := rfl

/-- Asking lays placeholders, and does nothing else. -/
theorem overlaid_expect (s : Store) (ids : List Id) : Overlaid (s.Awaits ids) s (s.expect ids) := by
  induction ids generalizing s with
  | nil => exact ⟨fun h => (List.not_mem_nil h.1).elim, fun _ => ⟨rfl, Iff.rfl⟩, fun _ => rfl⟩
  | cons id rest ih =>
    rw [expect_cons]
    split
    · rename_i hnew
      rw [Bool.and_eq_true, Bool.not_eq_true', Bool.not_eq_true'] at hnew
      refine ((overlaid_add s id).trans (ih _)).congr fun x => ?_
      by_cases hx : x = id
      · subst hx
        simp [Awaits, hnew]
      · simp [Awaits, hx, (overlaid_add s id).has_of_plain hx]
    · rename_i hold
      refine (ih s).congr fun x => ?_
      by_cases hx : x = id
      · subst hx
        simp only [Bool.and_eq_true, Bool.not_eq_true'] at hold
        exact iff_of_false (fun h => hold h.2) fun h => hold h.2
      · simp [Awaits, hx]

/-- A placeholder is not a container. -/
theorem addKey_of_placeholder (h : t.node? container = some { value := .placeholder container })
    (key : String) (origin : Origin) :
    (t.addKey container key origin).result.toBool = false ∧
      (t.addKey container key origin).store = t ∧
      (t.addKey container key origin).events = [] := by
  unfold addKey
  rw [h]
  split <;> exact ⟨rfl, rfl, rfl⟩

theorem removeKey_of_keyless
    (h : ∀ node, s.node? container = some node → node.value.kind ≠ .container) (key : String)
    (origin : Origin) :
    (s.removeKey container key origin).result.toBool = false ∧
      (s.removeKey container key origin).store = s := by
  unfold removeKey
  split
  · exact ⟨rfl, rfl⟩
  · split
    · exact ⟨rfl, rfl⟩
    · rw [removeKeyAt, if_pos (h _ ‹_›)]
      exact ⟨rfl, rfl⟩

end Store

/-! ## Directives -/

namespace Mirror

variable {r : Mirror} {container : Id} {key : String}

/-- Asks for ids. -/
def expecting (r : Mirror) (ids : List Id) : Mirror :=
  ((Client.materialize ids : StateM Mirror Unit).run r).2

/-- Carries out an update, and says whether it went through. -/
def heed (r : Mirror) (update : Update) : Bool × Mirror :=
  (Receiver.applyUpdate update : StateM Mirror Bool).run r

theorem store_expecting (r : Mirror) (ids : List Id) :
    (r.expecting ids).quiet.store = r.quiet.store.expect ids := by
  induction ids generalizing r with
  | nil => rfl
  | cons id rest ih =>
    have hthis : r.expecting [id] =
        ((if !id.isRoot && !r.quiet.store.has id then do
          let _ ← (Host.declare id .unset .readWrite : StateM Mirror (Except StoreError SetStatus))
        else pure () : StateM Mirror Unit) r).2 := rfl
    have hstore : (r.expecting [id]).quiet.store =
        if !id.isRoot && !r.quiet.store.has id then r.quiet.store.add (.placeholder id)
        else r.quiet.store := by
      rw [hthis]
      split
      · rename_i hnew
        rw [Bool.and_eq_true, Bool.not_eq_true', Bool.not_eq_true'] at hnew
        exact congrArg Outcome.store (Store.declare_placeholder hnew.2)
      · rfl
    exact (ih (r.expecting [id])).trans (by rw [hstore, Store.expect_cons])

theorem overlaid_expecting (r : Mirror) (ids : List Id) :
    Store.Overlaid (r.quiet.store.Awaits ids) r.quiet.store (r.expecting ids).quiet.store := by
  rw [store_expecting]
  exact r.quiet.store.overlaid_expect ids

theorem heed_addKey : r.heed (.addKey container key) =
    let outcome := r.quiet.store.addKey container key .remote
    (outcome.result.toBool, { r with quiet := (r.quiet.accept outcome).2 }) := rfl

theorem heed_removeKey : r.heed (.removeKey container key) =
    let outcome := r.quiet.store.removeKey container key .remote
    (outcome.result.toBool, { r with quiet := (r.quiet.accept outcome).2 }) := rfl

/-- The directive goes through and puts the key in place. -/
def Puts (r : Mirror) (container : Id) (key : String) : Prop :=
  (r.heed (.addKey container key)).1 = true ∧ key ∉ r.quiet.store.keysAt container ∧
    key ∈ (r.heed (.addKey container key)).2.quiet.store.keysAt container

instance : Decidable (r.Puts container key) := inferInstanceAs (Decidable (_ ∧ _ ∧ _))

/-- The directive goes through and takes the key away. -/
def Drops (r : Mirror) (container : Id) (key : String) : Prop :=
  (r.heed (.removeKey container key)).1 = true ∧ key ∈ r.quiet.store.keysAt container ∧
    key ∉ (r.heed (.removeKey container key)).2.quiet.store.keysAt container

/-- How directives for containers meet the placeholders of a request. -/
structure Unobtrusive (r : Mirror) (ids : List Id) : Prop where
  /-- A key is added around the placeholders, unless one of them stands for the container. -/
  added {container : Id} {key : String} : ¬r.quiet.store.Awaits ids container →
    ((r.expecting ids).heed (.addKey container key)).1 = (r.heed (.addKey container key)).1 ∧
      Store.Overlaid (r.quiet.store.Awaits ids) (r.heed (.addKey container key)).2.quiet.store
        ((r.expecting ids).heed (.addKey container key)).2.quiet.store
  /-- A placeholder takes no keys: the directive is lost, and nothing changes. -/
  refused {container : Id} {key : String} : r.quiet.store.Awaits ids container →
    (r.expecting ids).heed (.addKey container key) = (false, r.expecting ids)
  /-- So the key comes just where the container is there already, or nobody asked for it. -/
  puts {container : Id} {key : String} : r.Puts container key →
    ((r.expecting ids).Puts container key ↔ ¬r.quiet.store.Awaits ids container)
  /-- A key is removed around the placeholders. -/
  removed {container : Id} {key : String} :
    ((r.expecting ids).heed (.removeKey container key)).1 =
        (r.heed (.removeKey container key)).1 ∧
      ∀ x, ¬r.quiet.store.Awaits ids x →
        ((r.expecting ids).heed (.removeKey container key)).2.quiet.store.node? x =
          (r.heed (.removeKey container key)).2.quiet.store.node? x
  drops {container : Id} {key : String} : r.Drops container key →
    (r.expecting ids).Drops container key

theorem heed_addKey_expecting {ids : List Id} (h : ¬r.quiet.store.Awaits ids container) :
    ((r.expecting ids).heed (.addKey container key)).1 = (r.heed (.addKey container key)).1 ∧
      Store.Overlaid (r.quiet.store.Awaits ids) (r.heed (.addKey container key)).2.quiet.store
        ((r.expecting ids).heed (.addKey container key)).2.quiet.store := by
  have hoverlaid := overlaid_expecting r ids
  obtain ⟨hresult, hstore⟩ := hoverlaid.addKey h key .remote
  exact ⟨congrArg Except.toBool hresult, hstore⟩

theorem heed_addKey_placeholder {ids : List Id} (h : r.quiet.store.Awaits ids container) :
    (r.expecting ids).heed (.addKey container key) = (false, r.expecting ids) := by
  have hoverlaid := overlaid_expecting r ids
  obtain ⟨hresult, hstore, hevents⟩ :=
    Store.addKey_of_placeholder (hoverlaid.held h).1 key .remote
  rw [heed_addKey]
  simp only [Quiet.accept, hresult, hstore, hevents, List.append_nil]

theorem heed_removeKey_expecting (r : Mirror) (ids : List Id) (container : Id) (key : String) :
    ((r.expecting ids).heed (.removeKey container key)).1 =
        (r.heed (.removeKey container key)).1 ∧
      ∀ x, ¬r.quiet.store.Awaits ids x →
        ((r.expecting ids).heed (.removeKey container key)).2.quiet.store.node? x =
          (r.heed (.removeKey container key)).2.quiet.store.node? x := by
  have hoverlaid := overlaid_expecting r ids
  by_cases h : r.quiet.store.Awaits ids container
  · have hnone : ∀ node, r.quiet.store.node? container = some node →
        node.value.kind ≠ .container := by
      simp [Store.has_eq_false.mp h.2.2]
    have hunset : ∀ node, (r.expecting ids).quiet.store.node? container = some node →
        node.value.kind ≠ .container := by
      rw [(hoverlaid.held h).1]
      rintro _ ⟨⟩
      exact nofun
    have hplain := Store.removeKey_of_keyless hnone key .remote
    have hplaceholder := Store.removeKey_of_keyless hunset key .remote
    refine ⟨hplaceholder.1.trans hplain.1.symm, fun x hx => ?_⟩
    rw [heed_removeKey, heed_removeKey]
    simp only [Quiet.accept, hplain.2, hplaceholder.2, (hoverlaid.plain hx).1]
  · obtain ⟨hresult, hstore⟩ := hoverlaid.removeKey h key .remote
    exact ⟨congrArg Except.toBool hresult, hstore⟩

/-- Placeholders are in the way of no directive but one that adds a key to them. Distinct ids are
taken to have distinct tokens. -/
theorem unobtrusive (r : Mirror) (ids : List Id) : Unobtrusive r ids where
  added := heed_addKey_expecting
  refused := heed_addKey_placeholder
  puts {container key} hputs := by
    constructor
    · intro hexpecting hawaits
      have hgone := hexpecting.1
      rw [heed_addKey_placeholder hawaits] at hgone
      cases hgone
    · intro hplain
      obtain ⟨hwent, hnew, hnow⟩ := hputs
      obtain ⟨hresult, hoverlaid⟩ := heed_addKey_expecting hplain
      refine ⟨hresult.trans hwent, ?_, ?_⟩
      · rwa [(overlaid_expecting r ids).keysAt_of_plain hplain]
      · rwa [hoverlaid.keysAt_of_plain hplain]
  removed := heed_removeKey_expecting r ids _ _
  drops {container key} hdrops := by
    obtain ⟨hwent, hold, hgone⟩ := hdrops
    have hplain : ¬r.quiet.store.Awaits ids container := Store.not_awaits_of_mem_keysAt hold
    obtain ⟨hresult, hnode⟩ := heed_removeKey_expecting r ids container key
    refine ⟨hresult.trans hwent, ?_, ?_⟩
    · rwa [(overlaid_expecting r ids).keysAt_of_plain hplain]
    · rwa [Store.keysAt, hnode container hplain]

example :
    let r : Mirror := { filter := { app := "svc" } }
    r.Puts ⟨["c"]⟩ "k" ∧ (r.expecting [⟨["c", "k"]⟩]).Puts ⟨["c"]⟩ "k" ∧
      ¬(r.expecting [⟨["c"]⟩]).Puts ⟨["c"]⟩ "k" := by
  decide +kernel

end Mirror

end ValueTree
