import ValueTree.Proofs.Fragment.Attempt
import ValueTree.Proofs.Store.Declaring

/-!
# What a fragment declares

A fragment that fits an empty store leaves there just what it declares: an id for each declaration,
the last schema of each container, and legal payloads.
-/

open Std

namespace ValueTree

theorem ContainerDecl.schema_eq_ok {d : ContainerDecl} {schema : Schema}
    (h : d.schema = .ok schema) : schema.id = d.id ∧ schema.order = d.order := by
  have hfold (entries : List ValueDecl) (start : Schema)
      (h : entries.foldlM (fun schema entry =>
        schema.withEntry ⟨entry.id, entry.payload, entry.access⟩) start = .ok schema) :
      schema.id = start.id ∧ schema.order = start.order := by
    induction entries generalizing start with
    | nil =>
      obtain rfl := Except.ok.inj h
      exact ⟨rfl, rfl⟩
    | cons entry rest ih =>
      rw [List.foldlM_cons, Schema.withEntry] at h
      cases hfault : start.entryFault? ⟨entry.id, entry.payload, entry.access⟩ with
      | some fault =>
        rw [hfault] at h
        cases h
      | none =>
        rw [hfault] at h
        let next : Schema :=
          { start with template := start.template ++ [⟨entry.id, entry.payload, entry.access⟩] }
        exact ih next h
  exact hfold d.template _ h

namespace Fragment

variable {f : Fragment} {own : Store} {x : Id}

def DeclaresContainer (f : Fragment) (x : Id) : Prop := ∃ d ∈ f.containers, d.id = x

/-- The id is declared as a value, and never with the payload of a container. -/
def DeclaresPlain (f : Fragment) (x : Id) : Prop :=
  (∃ d ∈ f.values, d.id = x) ∧ ∀ d ∈ f.values, d.id = x → d.payload.kind ≠ .container

def Declares (f : Fragment) (x : Id) : Prop := f.DeclaresContainer x ∨ ∃ d ∈ f.values, d.id = x

instance (f : Fragment) (x : Id) : Decidable (f.DeclaresContainer x) :=
  inferInstanceAs (Decidable (∃ d ∈ f.containers, d.id = x))

instance (f : Fragment) (x : Id) : Decidable (f.DeclaresPlain x) :=
  inferInstanceAs (Decidable (_ ∧ _))

instance (f : Fragment) (x : Id) : Decidable (f.Declares x) :=
  inferInstanceAs (Decidable (_ ∨ _))

/-- Of several declarations of a container the last one counts. -/
def schema? (f : Fragment) (x : Id) : Option Schema :=
  (f.containers.reverse.find? (·.id = x)).bind (·.schema.toOption)

/-- Nothing is refused in an empty store. -/
def Fits (f : Fragment) : Prop := (Quiet.attempt {} f.declareInto).1 = .ok ()

/-- A store with what a fragment declares and nothing else. -/
structure Alone (f : Fragment) (own : Store) : Prop where
  wellFormed : own.WellFormed
  legal : own.AllLegal
  has_iff (x : Id) : own.has x = true ↔ f.Declares x
  kind_iff (x : Id) : own.kind? x = some .container ↔
    f.DeclaresContainer x ∨ ∃ d ∈ f.values, d.id = x ∧ d.payload.kind = .container
  schema?_eq (x : Id) : own.schema? x = f.schema? x
  exists_schema {x : Id} : f.DeclaresContainer x → ∃ schema, own.schema? x = some schema
  fault? {x : Id} {schema : Schema} : own.schema? x = some schema → schema.fault? = none
  /-- A container that is declared as a value as well is a container there, too. -/
  redeclared {x : Id} {d : ValueDecl} : f.DeclaresContainer x → d ∈ f.values → d.id = x →
    d.payload.kind = .container

namespace Alone

theorem empty : Alone {} {} where
  wellFormed := Store.wellFormed_empty
  legal x node h := by simp at h
  has_iff x := by simp [Store.has, Declares, DeclaresContainer]
  kind_iff x := by simp [Store.kind?, Store.get?, DeclaresContainer]
  schema?_eq x := by simp [Fragment.schema?]
  exists_schema h := by simp [DeclaresContainer] at h
  fault? h := by simp at h
  redeclared _ h := by simp at h

theorem declareContainer {done : List ContainerDecl} {d : ContainerDecl} {q q' : Quiet}
    (h : Alone ⟨done, []⟩ q.store) (hrun : q.attempt (declareContainer d) = (.ok (), q')) :
    Alone ⟨done ++ [d], []⟩ q'.store := by
  unfold Fragment.declareContainer at hrun
  split at hrun
  · cases hrun
  · rename_i schema hschema
    obtain ⟨hfault, status, hok, hstore⟩ := Quiet.declareContainer_eq_ok hrun
    obtain ⟨hid, -⟩ := ContainerDecl.schema_eq_ok hschema
    have hkind := Store.kind?_declare hok
    rw [hid] at hok hkind hstore
    rw [hstore]
    constructor
    case wellFormed =>
      exact (h.wellFormed.declare ..).putSchema (hid ▸ hkind)
    case legal =>
      exact h.legal.declared h.wellFormed hok
    case has_iff =>
      intro x
      refine (h.wellFormed.has_declared hok).trans ?_
      rw [h.has_iff]
      simp [Declares, DeclaresContainer, or_comm]
    case kind_iff =>
      intro x
      change (q.store.declare ..).store.kind? x = _ ↔ _
      by_cases hne : d.id = x
      · subst hne
        simp [hkind, Payload.kind, DeclaresContainer]
      · rw [Store.kind?_declare_ne hne, h.kind_iff]
        simp [DeclaresContainer, hne]
    case schema?_eq =>
      intro x
      rw [Store.schema?_putSchema, Store.schema?_declare, h.schema?_eq, hid]
      unfold Fragment.schema?
      rw [List.reverse_append, List.find?_append]
      by_cases hne : d.id = x
      · simp [hne, hschema, Except.toOption]
      · simp [hne]
    case exists_schema =>
      rintro x ⟨e, he, rfl⟩
      rw [Store.schema?_putSchema, Store.schema?_declare]
      split
      · exact ⟨schema, rfl⟩
      · rename_i hne
        rcases List.mem_append.mp he with he | he
        · exact h.exists_schema ⟨e, he, rfl⟩
        · exact absurd (List.mem_singleton.mp he ▸ hid) hne
    case fault? =>
      intro x found hx
      rw [Store.schema?_putSchema, Store.schema?_declare] at hx
      split at hx
      · cases hx
        exact hfault
      · exact h.fault? hx
    case redeclared =>
      intro x e _ he
      simp at he

theorem declareValue {done : List ValueDecl} {d : ValueDecl} {q q' : Quiet}
    (h : Alone ⟨f.containers, done⟩ q.store) (hrun : q.attempt (declareValue d) = (.ok (), q')) :
    Alone ⟨f.containers, done ++ [d]⟩ q'.store := by
  obtain ⟨status, hok, rfl⟩ := Quiet.declare_eq_ok.mp hrun
  -- A container stays one, whatever is declared for it.
  have hkept (hbefore : q.store.kind? d.id = some .container) : d.payload.kind = .container :=
    h.wellFormed.kind_declared hok hbefore nofun
  rw [h.kind_iff] at hkept
  constructor
  case wellFormed =>
    exact h.wellFormed.declare ..
  case legal =>
    exact h.legal.declared h.wellFormed hok
  case has_iff =>
    intro x
    refine (h.wellFormed.has_declared hok).trans ?_
    rw [h.has_iff]
    simp [Declares, DeclaresContainer, or_left_comm, or_comm]
  case kind_iff =>
    intro x
    by_cases hne : d.id = x
    · subst hne
      refine (Eq.congr_left (Store.kind?_declare hok)).trans (Option.some_inj.trans ?_)
      constructor
      · exact fun hcontainer => Or.inr ⟨d, by simp, rfl, hcontainer⟩
      · rintro (hcontainer | ⟨e, he, hid, hcontainer⟩)
        · exact hkept (Or.inl hcontainer)
        · rcases List.mem_append.mp he with he | he
          · exact hkept (Or.inr ⟨e, he, hid, hcontainer⟩)
          · exact List.mem_singleton.mp he ▸ hcontainer
    · refine (Eq.congr_left (Store.kind?_declare_ne hne)).trans ?_
      rw [h.kind_iff]
      simp [DeclaresContainer, hne]
  case schema?_eq =>
    intro x
    exact Store.schema?_declare.trans (h.schema?_eq x)
  case exists_schema =>
    intro x hx
    obtain ⟨schema, hschema⟩ := h.exists_schema hx
    exact ⟨schema, Store.schema?_declare.trans hschema⟩
  case fault? =>
    intro x schema hx
    exact h.fault? (Store.schema?_declare.symm.trans hx)
  case redeclared =>
    intro x e hcontainer he hid
    rcases List.mem_append.mp he with he | he
    · exact h.redeclared hcontainer he hid
    · obtain rfl := List.mem_singleton.mp he
      exact hkept (Or.inl (hid ▸ hcontainer))

end Alone

theorem alone_eq (f : Fragment) :
    f.alone = (Quiet.attempt {} f.declareInto).1.map fun _ =>
      (Quiet.attempt {} f.declareInto).2.store := rfl

theorem fits_iff : f.Fits ↔ ∃ own, f.alone = .ok own := by
  rw [Fits, alone_eq]
  cases (Quiet.attempt {} f.declareInto).1 <;> simp [Except.map]

theorem alone_of_eq_ok (h : f.alone = .ok own) : f.Alone own := by
  rw [alone_eq] at h
  cases hrun : Quiet.attempt {} f.declareInto with
  | mk result q =>
    rw [hrun] at h
    cases result with
    | error e => cases h
    | ok u =>
      obtain rfl : q.store = own := Except.ok.inj h
      obtain ⟨_, p, hcontainers, hvalues⟩ := Quiet.attempt_bind_eq_ok.mp hrun
      have hbegun : Alone ⟨f.containers, []⟩ p.store :=
        Quiet.forM_done (P := fun done p => Alone ⟨done, []⟩ p.store)
          (fun done d rest _ p p' h hrun => h.declareContainer hrun) .empty hcontainers
      exact Quiet.forM_done (P := fun done p => Alone ⟨f.containers, done⟩ p.store)
        (fun done d rest _ p p' h hrun => h.declareValue hrun) hbegun hvalues

/-! ## What is handed on to other stores -/

/-- Only the containers that are declared are to be looked at. -/
instance decidableContainer (f : Fragment) (p : Id → Prop) [DecidablePred p] :
    Decidable (∃ c, f.DeclaresContainer c ∧ p c) :=
  decidable_of_iff (∃ d ∈ f.containers, p d.id)
    ⟨fun ⟨d, hd, hp⟩ => ⟨d.id, ⟨d, hd, rfl⟩, hp⟩, fun ⟨_, ⟨d, hd, hid⟩, hp⟩ => ⟨d, hd, hid ▸ hp⟩⟩

namespace Alone

variable (h : f.Alone own)

include h

theorem mem_schemas {schema : Schema} :
    schema ∈ own.schemas ↔ own.schema? schema.id = some schema := by
  rw [Store.schemas, List.mem_map]
  constructor
  · rintro ⟨⟨id, found⟩, hmem, rfl⟩
    have hschema := ExtTreeMap.mem_toList_iff_getElem?_eq_some.mp hmem
    obtain ⟨hid, -⟩ := h.wellFormed.schema_place hschema
    exact hid ▸ hschema
  · intro hschema
    exact ⟨(schema.id, schema), ExtTreeMap.mem_toList_iff_getElem?_eq_some.mpr hschema, rfl⟩

/-- No schema comes behind one that its container lies above. -/
theorem pairwise_schemas : own.schemas.Pairwise fun a b => a.id.startsWith b.id = false := by
  rw [Store.schemas, List.pairwise_map]
  refine ExtTreeMap.ordered_keys_toList.imp_of_mem ?_
  intro a b ha hb hlt
  have hid (item : Id × Schema) (hmem : item ∈ own.templates.toList) : item.2.id = item.1 :=
    (h.wellFormed.schema_place (ExtTreeMap.mem_toList_iff_getElem?_eq_some.mp hmem)).1
  rw [hid a ha, hid b hb]
  exact Id.not_startsWith_of_lt hlt

/-- The schemas before one are about other containers. -/
theorem fresh_schema {done rest : List Schema} {schema other : Schema}
    (hsplit : own.schemas = done ++ schema :: rest) (hmem : other ∈ done) : other.id ≠ schema.id :=
  Id.ne_of_not_startsWith ((List.pairwise_append.mp (hsplit ▸ h.pairwise_schemas)).2.2 other hmem
    schema List.mem_cons_self)

theorem declaresContainer_iff : f.DeclaresContainer x ↔ ∃ schema ∈ own.schemas, schema.id = x := by
  constructor
  · intro hx
    obtain ⟨schema, hschema⟩ := h.exists_schema hx
    obtain ⟨rfl, -⟩ := h.wellFormed.schema_place hschema
    exact ⟨schema, h.mem_schemas.mpr hschema, rfl⟩
  · rintro ⟨schema, hmem, rfl⟩
    have hschema := h.mem_schemas.mp hmem
    rw [h.schema?_eq, Fragment.schema?] at hschema
    obtain ⟨d, hd, -⟩ := Option.bind_eq_some_iff.mp hschema
    exact ⟨d, List.mem_reverse.mp (List.mem_of_find?_eq_some hd), by simpa using List.find?_some hd⟩

theorem mem_plainValues {value : Value} :
    value ∈ plainValues own ↔ own.get? value.id = some value ∧ value.kind ≠ .container := by
  rw [plainValues, List.mem_filter, h.wellFormed.indexed.mem_values, decide_eq_true_iff]
  refine and_congr_left fun _ => ⟨?_, fun hget => ⟨value.id, hget⟩⟩
  rintro ⟨id, hget⟩
  rwa [h.wellFormed.indexed.id_of_get? hget]

theorem declaresPlain_iff : f.DeclaresPlain x ↔ ∃ value ∈ plainValues own, value.id = x := by
  constructor
  · rintro ⟨⟨d, hd, hid⟩, hplain⟩
    obtain ⟨node, hnode⟩ := Store.has_eq_true.mp ((h.has_iff x).mpr (Or.inr ⟨d, hd, hid⟩))
    have hvalue : node.value.id = x := h.wellFormed.node_id hnode
    refine ⟨node.value, h.mem_plainValues.mpr ⟨?_, fun hcontainer => ?_⟩, hvalue⟩
    · rw [hvalue, Store.get?, hnode, Option.map_some]
    · rcases (h.kind_iff x).mp (Store.kind?_eq_some.mpr ⟨node, hnode, hcontainer⟩) with
        hcontainer | ⟨e, he, heid, hcontainer⟩
      · exact hplain d hd hid (h.redeclared hcontainer hd hid)
      · exact hplain e he heid hcontainer
  · rintro ⟨value, hmem, rfl⟩
    obtain ⟨hget, hkind⟩ := h.mem_plainValues.mp hmem
    obtain ⟨node, hnode, rfl⟩ := Option.map_eq_some_iff.mp hget
    have hnot : own.kind? node.value.id ≠ some .container := by
      simpa [Store.kind?, hget] using hkind
    rw [ne_eq, h.kind_iff, not_or] at hnot
    refine ⟨?_, fun d hd hid hcontainer => hnot.2 ⟨d, hd, hid, hcontainer⟩⟩
    exact ((h.has_iff _).mp (Store.has_eq_true.mpr ⟨node, hnode⟩)).resolve_left hnot.1

theorem legal_plainValue {value : Value} (hvalue : value ∈ plainValues own) :
    value.payload.Legal := by
  obtain ⟨hget, -⟩ := h.mem_plainValues.mp hvalue
  obtain ⟨node, hnode, rfl⟩ := Option.map_eq_some_iff.mp hget
  exact h.legal _ node hnode

/-- No value has the id of a container. -/
theorem plainValue_ne {value : Value} {schema : Schema} (hvalue : value ∈ plainValues own)
    (hschema : schema ∈ own.schemas) : value.id ≠ schema.id := by
  intro hsame
  obtain ⟨hget, hkind⟩ := h.mem_plainValues.mp hvalue
  have hcontainer := (h.wellFormed.schema_place (h.mem_schemas.mp hschema)).2
  rw [← hsame, Store.kind?, hget] at hcontainer
  exact hkind (Option.some.inj hcontainer)

theorem pairwise_plainValues :
    (plainValues own).Pairwise fun a b => a.id.startsWith b.id = false :=
  (h.wellFormed.indexed.pairwise_values.filter _).imp Id.not_startsWith_of_lt

theorem fresh_plainValue {done rest : List Value} {value other : Value}
    (hsplit : plainValues own = done ++ value :: rest) (hmem : other ∈ done) : other.id ≠ value.id :=
  Id.ne_of_not_startsWith ((List.pairwise_append.mp (hsplit ▸ h.pairwise_plainValues)).2.2 other
    hmem value List.mem_cons_self)

end Alone

end Fragment

end ValueTree
