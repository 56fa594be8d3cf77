import ValueTree.Proofs.Fragment.Loading

/-!
# Checking and loading

A fragment is checked by what it leaves when it is declared, one declaration after the other, in a
store of its own. Loading takes the containers from the schemas of that store, and the values from
those that are no containers. Both are refused together. They part where a container is declared as a
value only, which loading leaves out, and where two declarations ask for another order of the keys:
the first one decides what is checked, the last one what is loaded.
-/

namespace ValueTree

namespace Fragment

variable {f : Fragment} {own t : Store} {x : Id}

/-- The order of keys that the first declaration of a container asks for. -/
def order? (f : Fragment) (x : Id) : Option KeyOrder :=
  (f.containers.find? (·.id = x)).map (·.order)

/-- The id has the payload of a container as a value, and is not declared as a container. -/
def Stray (f : Fragment) (x : Id) : Prop :=
  ¬f.DeclaresContainer x ∧ ∃ d ∈ f.values, d.id = x ∧ d.payload.kind = .container

/-- No container is declared as a value only, and the first and the last declaration of each ask for
the same order of keys. -/
def Agreeing (f : Fragment) : Prop :=
  (∀ d ∈ f.values, ¬f.Stray d.id) ∧
    ∀ d ∈ f.containers, f.order? d.id = (f.schema? d.id).map (·.order)

/-- What becomes of a fragment in the store `own` that it was checked in, and in `t`, which was empty
when it was loaded there. -/
structure Checked (f : Fragment) (own t : Store) : Prop where
  declared (x : Id) : own.has x = true ↔ f.Declares x
  loaded (x : Id) : t.has x = true ↔ f.Declares x ∧ ¬f.Stray x
  schema? (x : Id) : t.schema? x = own.schema? x
  plain {x : Id} : f.DeclaresPlain x → t.node? x = own.node? x
  container {x : Id} : f.DeclaresContainer x → ∃ first last, f.order? x = some first ∧
    (f.schema? x).map (·.order) = some last ∧
      own.payload? x = some (.container first) ∧ t.payload? x = some (.container last)

theorem declares_and_not_stray :
    f.Declares x ∧ ¬f.Stray x ↔ f.DeclaresContainer x ∨ f.DeclaresPlain x := by
  constructor
  · rintro ⟨hcontainer | hvalue, hstray⟩
    · exact Or.inl hcontainer
    · refine Decidable.or_iff_not_imp_left.mpr fun hno => ⟨hvalue, fun d hd hid hkind => ?_⟩
      exact hstray ⟨hno, d, hd, hid, hkind⟩
  · rintro (hcontainer | ⟨hvalue, hplain⟩)
    · exact ⟨Or.inl hcontainer, fun hstray => hstray.1 hcontainer⟩
    · exact ⟨Or.inr hvalue, fun ⟨_, d, hd, hid, hkind⟩ => hplain d hd hid hkind⟩

namespace Checked

variable (h : f.Checked own t)

include h

/-- The two stores hold the same payloads just if the declarations agree. -/
theorem payload?_iff : (∀ x, t.payload? x = own.payload? x) ↔ f.Agreeing := by
  have hhas (s : Store) (x : Id) : s.has x = (s.payload? x).isSome := by
    rw [Store.has, Store.payload?, Store.get?, Option.isSome_map, Option.isSome_map]
  constructor
  · intro hsame
    constructor
    · intro d hd hstray
      have hown : own.has d.id = true := (h.declared d.id).mpr (Or.inr ⟨d, hd, rfl⟩)
      rw [hhas, ← hsame, ← hhas] at hown
      exact ((h.loaded d.id).mp hown).2 hstray
    · intro d hd
      obtain ⟨first, last, hfirst, hlast, hown, ht⟩ := h.container ⟨d, hd, rfl⟩
      rw [hfirst, hlast]
      rw [hsame, hown] at ht
      exact congrArg some (Payload.container.inj (Option.some.inj ht))
  · rintro ⟨hvalues, hcontainers⟩ x
    by_cases hx : f.Declares x
    · have hstray : ¬f.Stray x := by
        intro hstray
        obtain ⟨d, hd, rfl, -⟩ := hstray.2
        exact hvalues d hd hstray
      rcases declares_and_not_stray.mp ⟨hx, hstray⟩ with hcontainer | hplain
      · obtain ⟨first, last, hfirst, hlast, hown, ht⟩ := h.container hcontainer
        obtain ⟨d, hd, rfl⟩ := hcontainer
        have hsame := hcontainers d hd
        rw [hfirst, hlast] at hsame
        rw [hown, ht, Option.some.inj hsame]
      · rw [Store.payload?, Store.get?, h.plain hplain]
        rfl
    · have hown : own.has x ≠ true := mt (h.declared x).mp hx
      have ht : t.has x ≠ true := fun ht => hx ((h.loaded x).mp ht).1
      rw [hhas, ne_eq, Option.not_isSome_iff_eq_none] at hown ht
      rw [hown, ht]

end Checked

/-! ## What is checked -/

/-- The first declaration of a container settles the order of its keys. -/
theorem payload?_declareContainers {q q' : Quiet} (h : q.store = {})
    (hrun : q.attempt (f.containers.forM declareContainer) = (.ok (), q')) :
    q'.store.WellFormed ∧ ∀ x, q'.store.payload? x = (f.order? x).map .container := by
  refine Quiet.forM_done (P := fun done q => q.store.WellFormed ∧
    ∀ x, q.store.payload? x = (order? ⟨done, []⟩ x).map .container)
    (fun done d rest _ p p' ⟨hp, hpayload⟩ hstep => ?_) ?_ hrun
  · unfold Fragment.declareContainer at hstep
    split at hstep
    · cases hstep
    · rename_i schema hschema
      obtain ⟨hid, horder⟩ := ContainerDecl.schema_eq_ok hschema
      obtain ⟨hp', ⟨order, hkept, hnode⟩, -⟩ := Quiet.declareContainer_leaves hp hstep
      rw [hid] at hkept hnode
      refine ⟨hp', fun x => ?_⟩
      rw [Store.payload?, Store.get?, hnode, order?, List.find?_append]
      by_cases hne : d.id = x
      · subst hne
        have hfound : p.store.found d.id =
            ((order? ⟨done, []⟩ d.id).map Payload.container).getD .unset := by
          rw [Store.found, hpayload]
        rw [hfound, order?] at hkept
        cases hfirst : done.find? (·.id = d.id) with
        | none => simp_all
        | some first => simp_all
      · rw [if_neg hne, ← Store.get?, ← Store.payload?, hpayload, order?]
        simp [hne]
  · rw [h]
    exact ⟨Store.wellFormed_empty, fun x => rfl⟩

/-- What is declared as a value afterwards does not change a container. -/
theorem payload?_declareValues {order : KeyOrder} {q q' : Quiet} (h : q.store.WellFormed)
    (hx : q.store.payload? x = some (.container order))
    (hrun : q.attempt (f.values.forM declareValue) = (.ok (), q')) :
    q'.store.payload? x = some (.container order) := by
  refine (Quiet.forM_done (P := fun _ q => q.store.WellFormed ∧
    q.store.payload? x = some (.container order)) (fun _ d _ _ p p' ⟨hp, hx⟩ hstep => ?_)
    ⟨h, hx⟩ hrun).2
  obtain ⟨status, hok, rfl⟩ := Quiet.declare_eq_ok.mp hstep
  obtain ⟨_, result, hassign, hnode⟩ := hp.node?_declared hok
  refine ⟨hp.declare .., ?_⟩
  rw [Store.payload?, Store.get?, hnode]
  split
  · rename_i hid
    rw [hid, Store.found, hx] at hassign
    exact congrArg some (Payload.eq_of_isStructural rfl hassign)
  · exact hx

theorem payload?_alone (hown : f.alone = .ok own) {first : KeyOrder}
    (hfirst : f.order? x = some first) : own.payload? x = some (.container first) := by
  rw [alone_eq] at hown
  cases hrun : Quiet.attempt {} f.declareInto with
  | mk result q =>
    rw [hrun] at hown
    cases result with
    | error e => cases hown
    | ok u =>
      obtain rfl : q.store = own := Except.ok.inj hown
      obtain ⟨_, p, hcontainers, hvalues⟩ := Quiet.attempt_bind_eq_ok.mp hrun
      obtain ⟨hp, hpayload⟩ := payload?_declareContainers rfl hcontainers
      exact payload?_declareValues hp ((hpayload x).trans (hfirst ▸ rfl)) hvalues

theorem Alone.node?_plainValue (h : f.Alone own) {value : Value}
    (hvalue : value ∈ plainValues own) : own.node? value.id = some ⟨value, []⟩ := by
  obtain ⟨hget, hkind⟩ := h.mem_plainValues.mp hvalue
  obtain ⟨node, hnode, rfl⟩ := Option.map_eq_some_iff.mp hget
  have hkeys : node.keys = [] :=
    Decidable.byContradiction fun hkeys => hkind (h.wellFormed.keys_kind hnode hkeys)
  rw [hnode, ← hkeys]

end Fragment

/-! ## What is loaded -/

namespace Quiet

open Fragment

variable {q p : Quiet} {f : Fragment} {own : Store}

/-- Where the values are not there yet, they come as they are. -/
theorem loadValues_leaves (halone : f.Alone own) (h : q.store.WellFormed)
    (hnew : ∀ value ∈ plainValues own, q.store.node? value.id = none)
    (hrun : q.attempt ((plainValues own).forM loadValue) = (.ok (), p)) :
    (∀ value ∈ plainValues own, p.store.node? value.id = some ⟨value, []⟩) ∧
      (∀ x, (∀ value ∈ plainValues own, value.id ≠ x) → p.store.node? x = q.store.node? x) ∧
        ∀ x, p.store.schema? x = q.store.schema? x := by
  refine (forM_done (P := fun done p => p.store.WellFormed ∧
    (∀ value ∈ done, p.store.node? value.id = some ⟨value, []⟩) ∧
      (∀ x, (∀ value ∈ done, value.id ≠ x) → p.store.node? x = q.store.node? x) ∧
        ∀ x, p.store.schema? x = q.store.schema? x) ?_
    ⟨h, nofun, fun _ _ => rfl, fun _ => rfl⟩ hrun).2
  rintro done value rest hsplit p p' ⟨hp, hdone, hother, hschema⟩ hstep
  have hmem : value ∈ plainValues own := by simp [hsplit]
  have hfresh (earlier : Value) (hearlier : earlier ∈ done) : earlier.id ≠ value.id :=
    halone.fresh_plainValue hsplit hearlier
  have hnone : p.store.node? value.id = none := (hother _ hfresh).trans (hnew value hmem)
  rw [attempt_loadValue, Store.has_eq_false.mpr hnone] at hstep
  obtain ⟨hok, rfl⟩ := Prod.mk.inj hstep
  obtain ⟨status, hassign⟩ := (halone.legal_plainValue hmem).assign_absent
  rw [← Store.found_of_none hnone] at hassign
  have hkeys : p.store.keysAt value.id = [] := by
    rw [Store.keysAt, hnone]
    rfl
  have hnode (x : Id) : (p.store.declare value.id value.payload value.access).store.node? x =
      if value.id = x then some ⟨value, []⟩ else p.store.node? x := by
    rw [hp.node?_declare hassign, hkeys]
  refine ⟨hp.declare .., fun earlier hearlier => ?_, fun x hx => ?_, fun x => ?_⟩
  · rcases List.mem_append.mp hearlier with hearlier | hearlier
    · rw [hnode, if_neg (hfresh earlier hearlier).symm]
      exact hdone earlier hearlier
    · obtain rfl := List.mem_singleton.mp hearlier
      rw [hnode, if_pos rfl]
  · obtain ⟨hx, hne⟩ := List.forall_mem_append.mp hx
    rw [hnode, if_neg (hne value (List.mem_singleton.mpr rfl))]
    exact hother x hx
  · exact Store.schema?_declare.trans (hschema x)

/-- What an empty store holds once a fragment is loaded into it. -/
theorem loaded_leaves (hown : f.alone = .ok own)
    (hrun : Quiet.attempt {} f.load = (.ok (), p)) :
    (∀ schema ∈ own.schemas, p.store.node? schema.id =
      some ⟨⟨schema.id, .readWrite, .container schema.order⟩, []⟩) ∧
      (∀ value ∈ plainValues own, p.store.node? value.id = some ⟨value, []⟩) ∧
      (∀ x, (∀ schema ∈ own.schemas, schema.id ≠ x) → (∀ value ∈ plainValues own, value.id ≠ x) →
        p.store.node? x = none) ∧
      ∀ x, p.store.schema? x = own.schema? x := by
  have halone := alone_of_eq_ok hown
  have hrun := (attempt_bind_ok (attempt_lift hown)).symm.trans hrun
  obtain ⟨_, q, hcontainers, hvalues⟩ := attempt_bind_eq_ok.mp hrun
  obtain ⟨-, hdeclared⟩ | ⟨e, hrefused, -⟩ :=
    declareContainers_cases halone Store.wellFormed_empty hcontainers
  case inr => cases hrefused
  have hnone {x : Id} (hx : ∀ schema ∈ own.schemas, schema.id ≠ x) : q.store.node? x = none :=
    (hdeclared.kept hx).1.trans (by simp)
  obtain ⟨hplain, hother, hschema⟩ := loadValues_leaves halone hdeclared.wellFormed
    (fun value hmem => hnone fun schema hschema => (halone.plainValue_ne hmem hschema).symm) hvalues
  refine ⟨fun schema hmem => ?_, hplain, fun x hx hx' => (hother x hx').trans (hnone hx),
    fun x => (hschema x).trans ?_⟩
  · obtain ⟨order, ⟨-, rfl⟩ | hthere, hnode⟩ := hdeclared.container hmem
    · rw [hother _ fun value hvalue => halone.plainValue_ne hvalue hmem, hnode]
      simp [Store.keysAt]
    · simp [Store.found, Store.payload?, Store.get?] at hthere
  · by_cases hx : ∃ schema ∈ own.schemas, schema.id = x
    · obtain ⟨schema, hmem, rfl⟩ := hx
      exact (hdeclared.schema? hmem).trans (halone.mem_schemas.mp hmem).symm
    · rw [(hdeclared.kept fun schema hmem hid => hx ⟨schema, hmem, hid⟩).2]
      refine Eq.symm (Option.eq_none_iff_forall_ne_some.mpr fun schema hschema => hx ?_)
      obtain ⟨rfl, -⟩ := halone.wellFormed.schema_place hschema
      exact ⟨schema, halone.mem_schemas.mpr hschema, rfl⟩

theorem checked_of_loaded (hown : f.alone = .ok own)
    (hrun : Quiet.attempt {} f.load = (.ok (), p)) : f.Checked own p.store := by
  have halone := alone_of_eq_ok hown
  obtain ⟨hcontainer, hplain, hnone, hschema⟩ := loaded_leaves hown hrun
  constructor
  case declared =>
    exact halone.has_iff
  case loaded =>
    intro x
    rw [declares_and_not_stray, halone.declaresContainer_iff, halone.declaresPlain_iff]
    constructor
    · intro hhas
      refine Classical.byContradiction fun hno => ?_
      obtain ⟨hno, hno'⟩ := not_or.mp hno
      rw [Store.has, hnone x (fun schema hmem hid => hno ⟨schema, hmem, hid⟩) fun value hmem hid =>
        hno' ⟨value, hmem, hid⟩] at hhas
      cases hhas
    · rintro (⟨schema, hmem, rfl⟩ | ⟨value, hmem, rfl⟩)
      · exact Store.has_eq_true.mpr ⟨_, hcontainer schema hmem⟩
      · exact Store.has_eq_true.mpr ⟨_, hplain value hmem⟩
  case schema? =>
    exact hschema
  case plain =>
    intro x hx
    obtain ⟨value, hmem, rfl⟩ := halone.declaresPlain_iff.mp hx
    rw [hplain value hmem, halone.node?_plainValue hmem]
  case container =>
    intro x hx
    obtain ⟨first, hfirst⟩ : ∃ first, f.order? x = some first := by
      rw [order?, ← Option.isSome_iff_exists, Option.isSome_map, List.find?_isSome]
      obtain ⟨d, hd, hid⟩ := hx
      exact ⟨d, hd, decide_eq_true hid⟩
    obtain ⟨schema, hmem, rfl⟩ := halone.declaresContainer_iff.mp hx
    refine ⟨first, schema.order, hfirst, ?_, payload?_alone hown hfirst, ?_⟩
    · rw [← halone.schema?_eq, halone.mem_schemas.mp hmem]
      rfl
    · rw [Store.payload?, Store.get?, hcontainer schema hmem]
      rfl

/-- A fragment is loaded into an empty store unless its check is refused, and then for the same
reason. All that it declares is there as it was checked, but for containers that are declared as
values only; the order of a container's keys may be another one. -/
theorem load_checked (f : Fragment) :
    match f.alone with
    | .error e => Quiet.attempt {} f.load = (.error e, {})
    | .ok own => ∃ p, Quiet.attempt {} f.load = (.ok (), p) ∧ f.Checked own p.store ∧
        ((∀ x, p.store.payload? x = own.payload? x) ↔ f.Agreeing) := by
  cases hown : f.alone with
  | error e => exact attempt_bind_error (attempt_lift hown)
  | ok own =>
    obtain ⟨p, hrun⟩ := load_isOk (q := {}) Store.wellFormed_empty hown fun c kind _ hkind => by
      simp [Store.kind?, Store.get?] at hkind
    have hchecked := checked_of_loaded hown hrun
    exact ⟨p, hrun, hchecked, hchecked.payload?_iff⟩

/-- A value that is declared as a container is checked and not loaded. -/
example :
    let f : Fragment := { values := [⟨⟨["c"]⟩, .readWrite, .container .ordered⟩] }
    (f.alone.map (·.has ⟨["c"]⟩)).toOption = some true ∧
      (Quiet.attempt {} f.load).2.store.has ⟨["c"]⟩ = false := by
  decide +kernel

end Quiet

end ValueTree
