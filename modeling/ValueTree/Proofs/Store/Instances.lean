import ValueTree.Proofs.Store.Declaring

/-!
# Where instances lie

A schema is checked before it is kept, so what a container without wildcards gives to its instances
lies below it. A new key changes nothing elsewhere. Where the container has a wildcard in its id, that
one takes on the key as well.
-/

namespace ValueTree

/-! ## Templates -/

namespace Id

variable {i p r c : Id} {key : String}

theorem eq_of_startsWith (hp : i.startsWith p = true) (hr : i.startsWith r = true)
    (hdepth : p.depth = r.depth) : p = r := by
  have hpr := List.prefix_of_prefix_length_le (startsWith_iff.mp hp) (startsWith_iff.mp hr)
    (Nat.le_of_eq hdepth)
  obtain ⟨p⟩ := p
  obtain ⟨r⟩ := r
  exact congrArg Id.mk (hpr.eq_of_length hdepth)

theorem instantiate_child_wildcard :
    (c.child wildcard).instantiate key = (c.instantiate key).child key := by
  simp [instantiate, child]

theorem instantiate_eq_self_iff :
    c.instantiate key = c ↔ ¬(c.isWildcard = true ∧ key ≠ wildcard) := by
  obtain ⟨segments⟩ := c
  have hsegments : instantiate ⟨segments⟩ key = ⟨segments⟩ ↔
      ∀ s ∈ segments, (if s = wildcard then key else s) = s := by
    rw [instantiate, Id.mk.injEq]
    simpa only [List.map_id, id_eq] using List.map_inj_left (g := id)
  rw [hsegments, isWildcard, List.any_eq_true]
  constructor
  · rintro hall ⟨⟨s, hs, hwild⟩, hkey⟩
    have hgiven := hall s hs
    rw [if_pos (of_decide_eq_true hwild)] at hgiven
    exact hkey (hgiven.trans (of_decide_eq_true hwild))
  · intro hplain s hs
    split
    · rename_i hwild
      rw [hwild]
      exact Decidable.not_not.mp fun hkey => hplain ⟨⟨s, hs, decide_eq_true hwild⟩, hkey⟩
    · rfl

/-- What a template gives to a key lies below the key unless a wildcard above takes the key on. -/
theorem instantiate_startsWith_iff (h : i.startsWith (c.child wildcard) = true) :
    (i.instantiate key).startsWith (c.child key) = true ↔
      ¬(c.isWildcard = true ∧ key ≠ wildcard) := by
  have hplace : (i.instantiate key).startsWith ((c.instantiate key).child key) = true := by
    rw [← instantiate_child_wildcard]
    exact startsWith_iff.mpr ((startsWith_iff.mp h).map _)
  rw [← instantiate_eq_self_iff]
  constructor
  · intro hbelow
    have hdepth : ((c.instantiate key).child key).depth = (c.child key).depth := by
      simp [child, depth, instantiate]
    exact (child_inj.mp (eq_of_startsWith hplace hbelow hdepth)).1
  · intro hsame
    rwa [hsame] at hplace

end Id

namespace Schema

variable {schema : Schema} {key : String} {value : Value}

theorem startsWith_pattern {entry : TemplateEntry} (h : schema.fault? = none)
    (hentry : entry ∈ schema.template) : entry.id.startsWith schema.pattern = true := by
  have hfault := List.findSome?_eq_none_iff.mp h entry hentry
  unfold entryFault? at hfault
  split at hfault
  · rename_i hbelow
    exact (Bool.and_eq_true_iff.mp hbelow).2
  · cases hfault

theorem instantiate_below_iff (h : schema.fault? = none) (hvalue : value ∈ schema.instantiate key) :
    value.id.startsWith (schema.id.child key) = true ↔
      ¬(schema.id.isWildcard = true ∧ key ≠ Id.wildcard) := by
  obtain ⟨entry, hentry, rfl⟩ := List.mem_map.mp hvalue
  exact Id.instantiate_startsWith_iff (startsWith_pattern h hentry)

theorem instantiate_below (h : schema.fault? = none) (hplain : schema.id.isWildcard = false)
    (hvalue : value ∈ schema.instantiate key) :
    value.id.startsWith (schema.id.child key) = true :=
  (instantiate_below_iff h hvalue).mpr (by simp [hplain])

end Schema

namespace Store

variable {s t u : Store} {id c x : Id} {node : Node} {key : String} {origin : Origin}
  {payload : Payload} {access : Access}

/-! ## Checked schemas -/

/-- Every schema has passed its check. -/
def Checked (s : Store) : Prop :=
  ∀ (x : Id) (schema : Schema), s.schema? x = some schema → schema.fault? = none

theorem Checked.of_schema? (h : s.Checked)
    (hschema : ∀ x schema, t.schema? x = some schema → s.schema? x = some schema) : t.Checked :=
  fun x schema hx => h x schema (hschema x schema hx)

theorem Checked.putSchema {schema : Schema} (h : s.Checked) (hfault : schema.fault? = none) :
    (s.putSchema schema).Checked := by
  intro x other hx
  rw [schema?_putSchema] at hx
  split at hx
  · cases hx
    exact hfault
  · exact h x other hx

theorem Checked.dropSchema (h : s.Checked) (id : Id) : (s.dropSchema id).Checked := by
  refine h.of_schema? fun x schema hx => ?_
  rw [schema?_dropSchema] at hx
  split at hx
  · cases hx
  · exact hx

/-! ## Growing below an id -/

/-- `t` is `s` but for the id and what lies below it, and has all that was there. -/
structure GrownBelow (s t : Store) (id : Id) : Prop where
  node? {x : Id} : x.startsWith id = false → t.node? x = s.node? x
  schema? {x : Id} : x.startsWith id = false → t.schema? x = s.schema? x
  has {x : Id} : s.has x = true → t.has x = true

namespace GrownBelow

theorem refl (s : Store) (id : Id) : s.GrownBelow s id := ⟨fun _ => rfl, fun _ => rfl, fun h => h⟩

theorem trans (h : s.GrownBelow t id) (h' : t.GrownBelow u id) : s.GrownBelow u id where
  node? hx := (h'.node? hx).trans (h.node? hx)
  schema? hx := (h'.schema? hx).trans (h.schema? hx)
  has hx := h'.has (h.has hx)

theorem put (node : Node) : s.GrownBelow (s.put id node) id where
  node? hx := by rw [node?_put, if_neg (Id.ne_of_not_startsWith hx).symm]
  schema? _ := rfl
  has {x} hx := by
    rw [Store.has, node?_put]
    split
    · rfl
    · exact hx

theorem add {value : Value} (hbelow : value.id.startsWith id = true) :
    s.GrownBelow (s.add value) id where
  node? {x} hx := by
    rw [node?_add, if_neg]
    rintro rfl
    rw [hbelow] at hx
    cases hx
  schema? _ := rfl
  has {x} hx := by
    rw [Store.has, node?_add]
    split
    · rfl
    · exact hx

theorem fill {values : List Value} (hbelow : ∀ value ∈ values, value.id.startsWith id = true) :
    s.GrownBelow (s.fill origin values).1 id where
  node? {x} hx := by
    have hnone : values.find? (·.id = x) = none := by
      refine List.find?_eq_none.mpr fun value hmem hid => ?_
      rw [← of_decide_eq_true hid, hbelow value hmem] at hx
      cases hx
    rw [node?_fill, hnone, Option.map_none, Option.or_none]
  schema? _ := schema?_fill values
  has hx := has_fill.mpr (Or.inl hx)

theorem putSchema {schema : Schema} : s.GrownBelow (s.putSchema schema) schema.id where
  node? _ := rfl
  schema? hx := by rw [schema?_putSchema, if_neg (Id.ne_of_not_startsWith hx).symm]
  has hx := hx

theorem create : s.GrownBelow (s.create id payload access origin).store id := by
  unfold Store.create
  split
  · exact .refl s id
  · exact .add id.startsWith_self

theorem assignAt : s.GrownBelow (s.assignAt id node payload origin).store id := by
  unfold Store.assignAt
  split
  · exact .refl s id
  · exact .refl s id
  · exact .put _

theorem declare : s.GrownBelow (s.declare id payload access).store id := by
  unfold Store.declare
  split
  · exact .create
  · exact (GrownBelow.put _).trans .assignAt

theorem addKeyAt {root : Id}
    (hbelow : ∀ value ∈ s.instanceValues c key root, value.id.startsWith c = true) :
    s.GrownBelow (s.addKeyAt c node key root origin).store c := by
  unfold Store.addKeyAt
  split
  · exact .refl s c
  · split
    · exact .refl s c
    · exact (GrownBelow.put _).trans (.fill hbelow)

end GrownBelow

/-- Without a wildcard in its id a container keeps its instances below their keys. -/
theorem WellFormed.instanceValues_below (hwf : s.WellFormed) (h : s.Checked)
    (hplain : c.isWildcard = false) {value : Value}
    (hvalue : value ∈ s.instanceValues c key (c.child key)) :
    value.id.startsWith (c.child key) = true := by
  rcases List.mem_cons.mp hvalue with rfl | hvalue
  · exact Id.startsWith_self _
  · cases hschema : s.schema? c with
    | none => simp [hschema] at hvalue
    | some schema =>
      obtain ⟨rfl, -⟩ := hwf.schema_place hschema
      rw [hschema, Option.map_some, Option.getD_some] at hvalue
      exact Schema.instantiate_below (h _ schema hschema) hplain hvalue

theorem WellFormed.grownBelow_addKey (hwf : s.WellFormed) (h : s.Checked)
    (hplain : c.isWildcard = false) : s.GrownBelow (s.addKey c key origin).store c := by
  unfold Store.addKey
  split
  · exact .refl s c
  · rename_i root hjoin
    obtain ⟨-, rfl⟩ := Id.join_eq_ok_iff.mp hjoin
    have hbelow : ∀ value ∈ s.instanceValues c key (c.child key), value.id.startsWith c = true := by
      intro value hvalue
      refine Id.startsWith_trans (hwf.instanceValues_below h hplain hvalue) ?_
      exact Id.child_startsWith_iff.mpr (Or.inr c.startsWith_self)
    split
    · exact .addKeyAt hbelow
    · exact .refl s c
    · exact (GrownBelow.add c.startsWith_self).trans (.addKeyAt hbelow)

end Store

/-! ## Runs -/

namespace Quiet

variable {q : Quiet}

theorem checked_step (h : q.store.Checked) (change : Change) : (q.step change).2.store.Checked := by
  cases change with
  | set id payload origin => exact h.of_schema? fun x _ hx => Store.schema?_write.symm.trans hx
  | setValue value origin => exact h.of_schema? fun x _ hx => Store.schema?_write.symm.trans hx
  | declare id payload access =>
    exact h.of_schema? fun x _ hx => Store.schema?_declare.symm.trans hx
  | remove id origin => exact h.of_schema? fun _ _ => Store.schema?_of_remove
  | removeWithToken id token origin =>
    exact h.of_schema? fun _ _ => Store.schema?_of_removeWithToken
  | declareContainer schema =>
    have hdeclared : (q.store.declare schema.id (.container schema.order) .readWrite).store.Checked :=
      h.of_schema? fun x _ hx => Store.schema?_declare.symm.trans hx
    rw [step_declareContainer]
    split
    · exact h
    · dsimp only
      split
      · exact hdeclared
      · exact hdeclared.putSchema ‹_›
  | dropSchema id => exact h.dropSchema id
  | addKey container key origin =>
    exact h.of_schema? fun x _ hx => Store.schema?_addKey.symm.trans hx
  | removeKey container key origin => exact h.of_schema? fun _ _ => Store.schema?_of_removeKey

theorem checked_run (h : q.store.Checked) (changes : List Change) : (q.after changes).store.Checked :=
  after_keeps (P := fun q => q.store.Checked) (fun change _ _ h => checked_step h change) h

end Quiet

end ValueTree
