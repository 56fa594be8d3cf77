import ValueTree.Proofs.Store.Instances
import ValueTree.Proofs.Store.Pruning

/-!
# Taking a new key back

A new key brings an instance with it, and its removal takes away all that lies below the key. The two
cancel out if the whole instance lies there. A container that has a wildcard in its own id gives the
key to that wildcard as well: what its template makes lies elsewhere then, and stays.
-/

namespace ValueTree

namespace Store

variable {s : Store} {c x : Id} {node : Node} {key : String} {origin back : Origin}

theorem segmentFault?_of_addKey {answer : Bool} (h : (s.addKey c key origin).result = .ok answer) :
    Id.segmentFault? key = none := by
  unfold addKey at h
  split at h
  · cases h
  · rename_i hjoin
    exact (Id.join_eq_ok_iff.mp hjoin).1

/-! ## Values that go astray -/

/-- The template of the container gives this value to the key. -/
def Given (s : Store) (c : Id) (key : String) (x : Id) : Prop :=
  ∃ schema, s.schema? c = some schema ∧ ∃ value ∈ schema.instantiate key, value.id = x

/-- A value that comes with a key and lies elsewhere: it is new, and the key went into a wildcard of
the container, too. -/
structure Stray (s : Store) (c : Id) (key : String) (x : Id) : Prop where
  given : s.Given c key x
  new : s.has x = false
  astray : c.isWildcard = true ∧ key ≠ Id.wildcard

theorem exists_instanceValue {root : Id} :
    (∃ value ∈ s.instanceValues c key root, value.id = x) ↔ root = x ∨ s.Given c key x := by
  cases hschema : s.schema? c <;> simp [instanceValues, Given, hschema]

theorem Given.startsWith_iff (h : s.WellFormed) (hchecked : s.Checked) (hgiven : s.Given c key x) :
    x.startsWith (c.child key) = true ↔ ¬(c.isWildcard = true ∧ key ≠ Id.wildcard) := by
  obtain ⟨schema, hschema, value, hvalue, rfl⟩ := hgiven
  obtain ⟨rfl, -⟩ := h.schema_place hschema
  exact Schema.instantiate_below_iff (hchecked _ _ hschema) hvalue

/-! ## There and back -/

/-- `t` is `s` and what went astray with the key. -/
structure Undone (s : Store) (c : Id) (key : String) (t : Store) : Prop where
  kept {x : Id} : s.has x = true → t.node? x = s.node? x
  has_iff (x : Id) : t.has x = true ↔ s.has x = true ∨ s.Stray c key x
  schema? (x : Id) : t.schema? x = s.schema? x

theorem Undone.eq_iff {t : Store} (h : s.Undone c key t) (hs : s.WellFormed) (ht : t.WellFormed) :
    t = s ↔ ∀ x, ¬s.Stray c key x := by
  constructor
  · rintro rfl x hx
    have hnew := hx.new
    rw [(h.has_iff x).mpr (Or.inr hx)] at hnew
    cases hnew
  · intro hnone
    refine ht.ext hs (fun x => ?_) h.schema?
    cases hx : s.has x with
    | true => exact h.kept hx
    | false =>
      have ht : t.has x = false := Bool.eq_false_iff.mpr fun hhas =>
        ((h.has_iff x).mp hhas).elim (Bool.eq_false_iff.mp hx) (hnone x)
      rw [has_eq_false.mp hx, has_eq_false.mp ht]

/-- A container without anything at the place of an instance that it could have. -/
structure Vacant (s : Store) (c : Id) (key : String) (node : Node) : Prop where
  wellFormed : s.WellFormed
  node?_eq : s.node? c = some node
  kind : node.value.kind = .container
  segment : Id.segmentFault? key = none
  clear {x : Id} : x.startsWith (c.child key) = true → s.has x = false

namespace Vacant

variable (h : s.Vacant c key node)

include h

theorem key_new : key ∉ node.keys := by
  intro hkey
  have hroot := h.wellFormed.keys_have h.node?_eq hkey
  rw [h.clear (Id.startsWith_self _)] at hroot
  cases hroot

theorem outside (hx : s.has x = true) : x.startsWith (c.child key) = false := by
  refine Bool.eq_false_iff.mpr fun hbelow => ?_
  rw [h.clear hbelow] at hx
  cases hx

/-! ### The key is there -/

theorem result_addKey : (s.addKey c key origin).result = .ok true := by
  rw [addKey_new h.node?_eq h.kind h.segment h.key_new]

theorem node?_addKey (hx : s.has x = true) : (s.addKey c key origin).store.node? x =
    if c = x then some { node with keys := node.keys ++ [key] } else s.node? x := by
  rw [addKey_new h.node?_eq h.kind h.segment h.key_new,
    node?_fill_old ((has_put h.node?_eq).trans hx), node?_put]

theorem has_addKey : (s.addKey c key origin).store.has x = true ↔
    s.has x = true ∨ c.child key = x ∨ s.Given c key x := by
  rw [addKey_new h.node?_eq h.kind h.segment h.key_new, has_fill, has_put h.node?_eq,
    exists_instanceValue]

theorem node?_container : (s.addKey c key origin).store.node? c =
    some { node with keys := node.keys ++ [key] } := by
  rw [h.node?_addKey (has_eq_true.mpr ⟨node, h.node?_eq⟩), if_pos rfl]

/-- What is new and does not lie below the key is what went astray. -/
theorem stray_iff (hchecked : s.Checked) (origin : Origin) : s.Stray c key x ↔
    (s.addKey c key origin).store.has x = true ∧ s.has x = false ∧
      x.startsWith (c.child key) = false := by
  rw [h.has_addKey]
  constructor
  · rintro ⟨hgiven, hnew, hastray⟩
    have hout := mt (hgiven.startsWith_iff h.wellFormed hchecked).mp (not_not_intro hastray)
    exact ⟨Or.inr (Or.inr hgiven), hnew, Bool.eq_false_iff.mpr hout⟩
  · rintro ⟨hhas | rfl | hgiven, hnew, hout⟩
    · rw [hnew] at hhas
      cases hhas
    · rw [Id.startsWith_self] at hout
      cases hout
    · have hastray :=
        mt (hgiven.startsWith_iff h.wellFormed hchecked).mpr (Bool.eq_false_iff.mp hout)
      exact ⟨hgiven, hnew, Decidable.not_not.mp hastray⟩

/-! ### The key is gone again -/

theorem result_undone :
    ((s.addKey c key origin).store.removeKey c key back).result = .ok true := by
  rw [removeKey_old h.node?_container h.kind h.segment (by simp)]

theorem node?_undone : ((s.addKey c key origin).store.removeKey c key back).store.node? x =
    if x.startsWith (c.child key) then none
    else if c = x then some node else (s.addKey c key origin).store.node? x := by
  have hkeys : (node.keys ++ [key]).erase key = node.keys := by
    simp [List.erase_append_right _ h.key_new]
  rw [(h.wellFormed.addKey c key origin).node?_removeKey h.node?_container (by simp)
    h.result_undone, hkeys]

theorem has_undone : ((s.addKey c key origin).store.removeKey c key back).store.has x = true ↔
    (s.addKey c key origin).store.has x = true ∧ x.startsWith (c.child key) = false := by
  rw [has, h.node?_undone]
  split
  · simp [*]
  · split
    · subst_vars
      simp [has, h.node?_container]
    · simp [has, *]

theorem schema?_undone :
    ((s.addKey c key origin).store.removeKey c key back).store.schema? x = s.schema? x := by
  rw [(h.wellFormed.addKey c key origin).schema?_removeKey h.node?_container (by simp)
    h.result_undone, schema?_addKey]
  split
  · exact (h.wellFormed.schema?_of_not_has (h.clear ‹_›)).symm
  · rfl

/-- The key goes with all that lies below it, which is all that came with it unless some went
astray. -/
theorem undone (hchecked : s.Checked) (origin back : Origin) :
    s.Undone c key ((s.addKey c key origin).store.removeKey c key back).store := by
  constructor
  case kept =>
    intro x hx
    rw [h.node?_undone, if_neg (Bool.eq_false_iff.mp (h.outside hx)), h.node?_addKey hx]
    split
    · subst_vars
      exact h.node?_eq.symm
    · rfl
  case has_iff =>
    intro x
    rw [h.has_undone, h.stray_iff hchecked origin]
    cases hx : s.has x with
    | true => simp [h.has_addKey.mpr (Or.inl hx), h.outside hx]
    | false => simp
  case schema? =>
    intro x
    exact h.schema?_undone

end Vacant

end Store

namespace Quiet

/-- A key that is added to a container and removed again leaves the store as it was, unless values
that its template gave to the key went astray; those stay, and all else is as it was. They are the
only ones that came with the key and do not lie below it. -/
theorem addKey_undone (changes : List Change) {c : Id} {key : String} {origin back : Origin}
    {added : Bool} (hkind : (Quiet.after {} changes).store.kind? c = some .container)
    (hclear : ∀ x, x.startsWith (c.child key) = true →
      (Quiet.after {} changes).store.has x = false)
    (hok : ((Quiet.after {} changes).store.addKey c key origin).result = .ok added) :
    let s := (Quiet.after {} changes).store
    let grown := (s.addKey c key origin).store
    let undone := grown.removeKey c key back
    added = true ∧ undone.result = .ok true ∧ s.Undone c key undone.store ∧
      (∀ x, grown.has x = true → s.has x = false →
        (x.startsWith (c.child key) = true ↔ ¬s.Stray c key x)) ∧
      (undone.store = s ↔ ∀ x, ¬s.Stray c key x) := by
  intro s grown undone
  have hchecked : s.Checked := checked_run (fun x schema hx => by simp at hx) changes
  obtain ⟨node, hnode, hkind⟩ := Store.kind?_eq_some.mp hkind
  have h : s.Vacant c key node := {
    wellFormed := wellFormed_run Store.wellFormed_empty changes
    node?_eq := hnode
    kind := hkind
    segment := Store.segmentFault?_of_addKey hok
    clear := hclear _ }
  have hundone := h.undone hchecked origin back
  refine ⟨Except.ok.inj (hok.symm.trans h.result_addKey), h.result_undone, hundone,
    fun x hgrown hnew => ?_, hundone.eq_iff h.wellFormed ((h.wellFormed.addKey ..).removeKey ..)⟩
  rw [h.stray_iff hchecked origin]
  have hgrown : (s.addKey c key origin).store.has x = true := hgrown
  simp [hgrown, hnew]

/-- A container without a wildcard in its id. -/
theorem addKey_undone_lamps :
    let lamps : Id := ⟨["lamps"]⟩
    let on : TemplateEntry := { id := ⟨["lamps", "+", "on"]⟩, payload := .bool true }
    let s := (Quiet.after {} [.declareContainer ⟨lamps, .ordered, [on]⟩]).store
    let grown := (s.addKey lamps "k" .local).store
    grown.has ⟨["lamps", "k", "on"]⟩ = true ∧ (grown.removeKey lamps "k" .remote).store = s := by
  intro lamps on s grown
  have h : s.WellFormed := wellFormed_run Store.wellFormed_empty _
  have hnode : s.node? lamps = some { value := ⟨lamps, .readWrite, .container .ordered⟩ } := by
    decide +kernel
  have hclear : ∀ x, x.startsWith (lamps.child "k") = true → s.has x = false :=
    h.indexed.subtree_eq_nil_iff.mp (by decide +kernel)
  have hok : (s.addKey lamps "k" .local).result = .ok true := by
    rw [Store.addKey_new hnode rfl (by decide) (by decide)]
  obtain ⟨-, -, -, -, hsame⟩ :=
    addKey_undone _ (Store.kind?_eq_some.mpr ⟨_, hnode, rfl⟩) hclear hok
  refine ⟨by decide +kernel, hsame.mpr fun x hx => ?_⟩
  exact absurd hx.astray.1 (by decide)

/-- The container is its own wildcard, and the key goes to both places. -/
example :
    let c : Id := ⟨["a", "+"]⟩
    let entry : TemplateEntry := { id := ⟨["a", "+", "+", "x"]⟩, payload := .bool true }
    let s := (Quiet.after {} [.declareContainer ⟨c, .ordered, [entry]⟩]).store
    ((s.addKey c "k" .local).store.removeKey c "k" .local).store.ids =
      [c, ⟨["a", "k", "k", "x"]⟩] := by
  decide +kernel

end Quiet

end ValueTree
