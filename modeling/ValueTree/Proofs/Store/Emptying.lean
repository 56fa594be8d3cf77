import ValueTree.Proofs.Store.Pruning

/-!
# Emptying containers

A container is emptied key by key, and each key takes its instance with it. Containers are emptied in
the order of their ids, so none goes with the instance of a later one.
-/

namespace ValueTree

namespace Store

variable {s t u : Store} {c x y : Id} {node : Node} {keys : List String} {schema : Schema}
  {done : List Schema}

/-- The id lies at or below the instance of one of the container's keys. -/
def InInstance (s : Store) (c x : Id) : Prop :=
  ∃ key ∈ s.keysAt c, x.startsWith (c.child key) = true

instance (s : Store) (c x : Id) : Decidable (s.InInstance c x) :=
  inferInstanceAs (Decidable (∃ key ∈ s.keysAt c, x.startsWith (c.child key) = true))

theorem InInstance.below (h : s.InInstance c x) : x.startsWith c = true := by
  obtain ⟨key, -, hbelow⟩ := h
  exact Id.startsWith_trans hbelow (Id.child_startsWith_iff.mpr (Or.inr c.startsWith_self))

theorem InInstance.deeper (h : s.InInstance c x) (hy : y.startsWith x = true) :
    s.InInstance c y := by
  obtain ⟨key, hkey, hbelow⟩ := h
  exact ⟨key, hkey, Id.startsWith_trans hy hbelow⟩

theorem not_inInstance_self : ¬s.InInstance c c := by
  rintro ⟨key, -, hbelow⟩
  rw [Id.not_startsWith_child] at hbelow
  cases hbelow

theorem not_inInstance_of_keysAt (h : s.keysAt c = []) : ¬s.InInstance c x := by
  rintro ⟨key, hkey, -⟩
  rw [h] at hkey
  cases hkey

/-! ## One container -/

/-- `t` is `s` with one container emptied, or declared if it was not there. -/
structure Reset (s t : Store) (schema : Schema) : Prop where
  wellFormed : t.WellFormed
  container : t.kind? schema.id = some .container ∧ t.keysAt schema.id = []
  schema? : t.schema? schema.id = (s.schema? schema.id).or (some schema)
  gone {x : Id} : s.InInstance schema.id x → t.node? x = none
  kept {x : Id} : schema.id ≠ x → ¬s.InInstance schema.id x →
    t.node? x = s.node? x ∧ t.schema? x = s.schema? x

theorem Reset.refl (h : s.WellFormed) (hkeys : s.keysAt schema.id = [])
    (hschema : s.schema? schema.id ≠ none) : s.Reset s schema := by
  obtain ⟨kept, hkept⟩ := Option.ne_none_iff_exists'.mp hschema
  refine ⟨h, ⟨(h.schema_place hkept).2, hkeys⟩, by rw [hkept]; rfl, fun hin => ?_, fun _ _ => ?_⟩
  · exact absurd hin (not_inInstance_of_keysAt hkeys)
  · exact ⟨rfl, rfl⟩

theorem keys_eq_ok (h : s.keys c = .ok keys) :
    ∃ node, s.node? c = some node ∧ keys.Perm node.keys := by
  unfold Store.keys at h
  split at h
  · cases h
  · rename_i node hnode
    refine ⟨node, hnode, ?_⟩
    split at h
    · exact Except.ok.inj h ▸ .refl _
    · exact Except.ok.inj h ▸ List.mergeSort_perm _ _
    · cases h

theorem keys_of_container (h : s.kind? c = some .container) (hkeys : s.keysAt c = []) :
    s.keys c = .ok [] := by
  obtain ⟨node, hnode, hkind⟩ := kind?_eq_some.mp h
  rw [keysAt_of_node? hnode] at hkeys
  unfold Value.kind at hkind
  unfold keys
  rw [hnode]
  cases hpayload : node.value.payload with
  | container order => cases order <;> simp [hpayload, hkeys]
  | _ =>
    rw [hpayload] at hkind
    cases hkind

/-- What is left once some keys of a container went with their instances. -/
structure KeysGone (s t : Store) (c : Id) (node : Node) (keys : List String) : Prop where
  wellFormed : t.WellFormed
  container : t.node? c = some (node.retain (· ∉ keys))
  node? {x : Id} : c ≠ x →
    t.node? x = if keys.any (x.startsWith <| c.child ·) then none else s.node? x
  schema? (x : Id) : t.schema? x =
    if keys.any (x.startsWith <| c.child ·) then none else s.schema? x

namespace KeysGone

theorem keysAt (h : KeysGone s t c node keys) (hkeys : keys.Perm node.keys) : t.keysAt c = [] := by
  rw [keysAt_of_node? h.container]
  exact List.filter_eq_nil_iff.mpr fun key hkey => by simpa using hkeys.mem_iff.mpr hkey

/-- A container that is reset after all its keys went is reset as a whole. -/
theorem reset (h : KeysGone s t schema.id node keys) (hnode : s.node? schema.id = some node)
    (hkeys : keys.Perm node.keys) (h' : t.Reset u schema) : s.Reset u schema := by
  have hnone (x : Id) : ¬t.InInstance schema.id x :=
    not_inInstance_of_keysAt (h.keysAt hkeys)
  have hany (x : Id) :
      keys.any (x.startsWith <| schema.id.child ·) = true ↔ s.InInstance schema.id x := by
    rw [List.any_eq_true, InInstance, keysAt_of_node? hnode]
    exact exists_congr fun key => and_congr_left fun _ => hkeys.mem_iff
  constructor
  case wellFormed =>
    exact h'.wellFormed
  case container =>
    exact h'.container
  case schema? =>
    rw [h'.schema?, h.schema?, if_neg (mt (hany _).mp not_inInstance_self)]
  case gone =>
    intro x hin
    have hne : schema.id ≠ x := by
      rintro rfl
      exact not_inInstance_self hin
    rw [(h'.kept hne (hnone x)).1, h.node? hne, if_pos ((hany x).mpr hin)]
  case kept =>
    intro x hne hout
    obtain ⟨hnode', hschema'⟩ := h'.kept hne (hnone x)
    have hout := mt (hany x).mp hout
    exact ⟨hnode'.trans ((h.node? hne).trans (if_neg hout)),
      hschema'.trans ((h.schema? x).trans (if_neg hout))⟩

end KeysGone

/-! ## One after the other -/

/-- The id lies in an instance of one of the containers. -/
def Cleared (s : Store) (schemas : List Schema) (x : Id) : Prop :=
  ∃ schema ∈ schemas, s.InInstance schema.id x

theorem cleared_append : s.Cleared (done ++ [schema]) x ↔
    s.Cleared done x ∨ s.InInstance schema.id x := by
  simp [Cleared, or_and_right, exists_or]

/-- `t` is `s` with these containers emptied, and declared where they were not there or went with an
instance. -/
structure Emptied (s t : Store) (schemas : List Schema) : Prop where
  wellFormed : t.WellFormed
  container {schema : Schema} : schema ∈ schemas →
    t.kind? schema.id = some .container ∧ t.keysAt schema.id = []
  schema_kept {schema : Schema} : schema ∈ schemas → ¬s.Cleared schemas schema.id →
    t.schema? schema.id = (s.schema? schema.id).or (some schema)
  schema_new {schema : Schema} : schema ∈ schemas → s.Cleared schemas schema.id →
    t.schema? schema.id = some schema
  gone {x : Id} : (∀ schema ∈ schemas, schema.id ≠ x) → s.Cleared schemas x → t.node? x = none
  kept {x : Id} : (∀ schema ∈ schemas, schema.id ≠ x) → ¬s.Cleared schemas x →
    t.node? x = s.node? x ∧ t.schema? x = s.schema? x

namespace Emptied

theorem nil (h : s.WellFormed) : s.Emptied s [] where
  wellFormed := h
  container := nofun
  schema_kept := nofun
  schema_new := nofun
  gone _ := by
    rintro ⟨_, hmem, -⟩
    cases hmem
  kept _ _ := ⟨rfl, rfl⟩

/-- If the next container went with an instance, then all that it held went, too. -/
theorem instances (h : s.Emptied t done) (hfresh : ∀ other ∈ done, other.id ≠ c) :
    s.Cleared done x ∨ s.InInstance c x ↔ s.Cleared done x ∨ t.InInstance c x := by
  by_cases hcleared : s.Cleared done c
  · have hnone : ¬t.InInstance c x := by
      rintro ⟨key, hkey, -⟩
      rw [keysAt, h.gone hfresh hcleared] at hkey
      cases hkey
    refine ⟨fun hx => Or.inl (hx.elim id fun hin => ?_), fun hx => Or.inl (hx.resolve_right hnone)⟩
    obtain ⟨schema, hmem, habove⟩ := hcleared
    exact ⟨schema, hmem, habove.deeper hin.below⟩
  · have hsame : t.keysAt c = s.keysAt c := by
      rw [keysAt, (h.kept hfresh hcleared).1, ← keysAt]
    rw [InInstance, InInstance, hsame]

/-- No container comes after one that lies below it. -/
theorem snoc (h : s.Emptied t done) (hreset : t.Reset u schema)
    (horder : ∀ other ∈ done, other.id.startsWith schema.id = false) :
    s.Emptied u (done ++ [schema]) := by
  have hfresh : ∀ other ∈ done, other.id ≠ schema.id :=
    fun other hmem => Id.ne_of_not_startsWith (horder other hmem)
  have houtside {v : Store} : ∀ other ∈ done, ¬v.InInstance schema.id other.id :=
    fun other hmem hin => Bool.eq_false_iff.mp (horder other hmem) hin.below
  -- The containers before it do not lie in its instances, so they are as they were.
  have hbefore : ∀ other ∈ done,
      u.node? other.id = t.node? other.id ∧ u.schema? other.id = t.schema? other.id :=
    fun other hmem => hreset.kept (hfresh other hmem).symm (houtside other hmem)
  constructor
  case wellFormed =>
    exact hreset.wellFormed
  case container =>
    intro other hmem
    rcases List.mem_append.mp hmem with hmem | hmem
    · rw [kind?, get?, keysAt, (hbefore other hmem).1]
      exact h.container hmem
    · exact List.mem_singleton.mp hmem ▸ hreset.container
  case schema_kept =>
    intro other hmem hkept
    rw [cleared_append, not_or] at hkept
    rcases List.mem_append.mp hmem with hmem | hmem
    · exact (hbefore other hmem).2.trans (h.schema_kept hmem hkept.1)
    · obtain rfl := List.mem_singleton.mp hmem
      rw [hreset.schema?, (h.kept hfresh hkept.1).2]
  case schema_new =>
    intro other hmem hcleared
    rw [cleared_append] at hcleared
    rcases List.mem_append.mp hmem with hmem | hmem
    · have hcleared := hcleared.resolve_right (houtside other hmem)
      exact (hbefore other hmem).2.trans (h.schema_new hmem hcleared)
    · obtain rfl := List.mem_singleton.mp hmem
      have hgone := has_eq_false.mpr (h.gone hfresh (hcleared.resolve_right not_inInstance_self))
      rw [hreset.schema?, h.wellFormed.schema?_of_not_has hgone]
      rfl
  case gone =>
    intro x hother hcleared
    obtain ⟨hdone, hlast⟩ := List.forall_mem_append.mp hother
    rw [cleared_append, h.instances hfresh] at hcleared
    by_cases hin : t.InInstance schema.id x
    · exact hreset.gone hin
    · rw [(hreset.kept (hlast schema (List.mem_singleton.mpr rfl)) hin).1]
      exact h.gone hdone (hcleared.resolve_right hin)
  case kept =>
    intro x hother hcleared
    obtain ⟨hdone, hlast⟩ := List.forall_mem_append.mp hother
    rw [cleared_append, h.instances hfresh, not_or] at hcleared
    obtain ⟨hnode, hschema⟩ :=
      hreset.kept (hlast schema (List.mem_singleton.mpr rfl)) hcleared.2
    obtain ⟨hnode', hschema'⟩ := h.kept hdone hcleared.1
    exact ⟨hnode.trans hnode', hschema.trans hschema'⟩

end Emptied

end Store

end ValueTree
