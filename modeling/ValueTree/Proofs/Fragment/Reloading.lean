import ValueTree.Proofs.Fragment.Loading
import ValueTree.Proofs.Store.Emptying

/-!
# What reloading leaves

Reloading takes all instances from the containers of a fragment and puts its values back to what the
fragment says. A container may lie in an instance of another one: it goes with the instance, and is
declared again when its own turn comes.
-/

namespace ValueTree

namespace Store

variable {s t : Store} {value : Value}

/-- The value is there with its access mode, and its payload is taken on without a change. -/
def Takes (s : Store) (value : Value) : Prop :=
  ∃ status payload keys, s.node? value.id = some ⟨⟨value.id, value.access, payload⟩, keys⟩ ∧
    payload.assign value.payload = .ok (status, payload)

theorem Takes.congr (h : s.Takes value)
    (hnode : t.node? value.id = s.node? value.id) : t.Takes value := by
  unfold Takes at h ⊢
  rwa [hnode]

end Store

namespace Fragment

/-- The id lies in an instance of a container of the fragment. -/
def Wipes (f : Fragment) (s : Store) (x : Id) : Prop :=
  ∃ c, f.DeclaresContainer c ∧ s.InInstance c x

instance (f : Fragment) (s : Store) (x : Id) : Decidable (f.Wipes s x) :=
  inferInstanceAs (Decidable (∃ c, f.DeclaresContainer c ∧ s.InInstance c x))

/-- What reloading makes of a store. -/
structure Reloaded (f : Fragment) (s t : Store) : Prop where
  container {c : Id} : f.DeclaresContainer c → t.kind? c = some .container ∧ t.keysAt c = []
  schema_kept {c : Id} {schema : Schema} : f.DeclaresContainer c →
    s.schema? c = some schema → ¬f.Wipes s c → t.schema? c = some schema
  schema_new {c : Id} : f.DeclaresContainer c → s.schema? c = none ∨ f.Wipes s c →
    ∃ schema, f.schema? c = some schema ∧ t.schema? c = some schema
  /-- Of what lies in an instance only that is there afterwards which is declared itself. -/
  wiped {x : Id} : f.Wipes s x → ¬f.Declares x → t.has x = false
  kept {x : Id} : ¬f.Wipes s x → ¬f.Declares x →
    t.node? x = s.node? x ∧ t.schema? x = s.schema? x

theorem Reloaded.registered {f : Fragment} {s t : Store} {c : Id} (h : f.Reloaded s t)
    (hc : f.DeclaresContainer c) : t.schema? c ≠ none := by
  by_cases hnew : s.schema? c = none ∨ f.Wipes s c
  · obtain ⟨schema, -, hschema⟩ := h.schema_new hc hnew
    rw [hschema]
    nofun
  · obtain ⟨hthere, hout⟩ := not_or.mp hnew
    obtain ⟨schema, hschema⟩ := Option.ne_none_iff_exists'.mp hthere
    rw [h.schema_kept hc hschema hout]
    nofun

/-- The containers of the fragment are those of its schemas. -/
theorem Alone.cleared_iff {f : Fragment} {own s : Store} {x : Id} (h : f.Alone own) :
    s.Cleared own.schemas x ↔ f.Wipes s x := by
  constructor
  · rintro ⟨schema, hmem, hin⟩
    exact ⟨schema.id, h.declaresContainer_iff.mpr ⟨schema, hmem, rfl⟩, hin⟩
  · rintro ⟨c, hc, hin⟩
    obtain ⟨schema, hmem, rfl⟩ := h.declaresContainer_iff.mp hc
    exact ⟨schema, hmem, hin⟩

end Fragment

namespace Quiet

open Fragment

variable {q p : Quiet} {f : Fragment} {own : Store} {c : Id} {node : Node} {schema : Schema}

/-! ## Containers -/

theorem removeKeys_leaves {keys : List String} (h : q.store.WellFormed)
    (hnode : q.store.node? c = some node) (hmem : ∀ key ∈ keys, key ∈ node.keys)
    (hnodup : keys.Nodup)
    (hrun : q.attempt (keys.forM fun key => do
      let _ ← ExceptT.mk (Host.removeKey c key .local)) = (.ok (), p)) :
    q.store.KeysGone p.store c node keys := by
  refine forM_done (P := fun done p => q.store.KeysGone p.store c node done)
    (fun done key rest hsplit p p' hp hstep => ?_) ⟨h, ?_, fun _ => rfl, fun _ => rfl⟩ hrun
  · obtain ⟨answer, hok, rfl⟩ := removeKey_eq_ok.mp hstep
    have hfresh : key ∉ done := by
      rw [hsplit] at hnodup
      exact fun hdone => (List.nodup_append.mp hnodup).2.2 key hdone key List.mem_cons_self rfl
    have hkey : key ∈ (node.retain (· ∉ done)).keys :=
      List.mem_filter.mpr ⟨hmem key (by simp [hsplit]), decide_eq_true hfresh⟩
    constructor
    · exact hp.wellFormed.removeKey ..
    · refine (hp.wellFormed.node?_removeKey hp.container hkey hok).trans ?_
      rw [Id.not_startsWith_child, if_neg Bool.false_ne_true, if_pos rfl,
        (hp.wellFormed.keys_nodup hp.container).erase_eq_filter]
      simp only [Node.retain, List.filter_filter, List.mem_append, List.mem_singleton, not_or]
      refine congrArg (fun keys => some (Node.mk node.value keys)) (List.filter_congr fun k _ => ?_)
      exact Bool.eq_iff_iff.mpr (by simp [and_comm])
    · intro x hne
      refine (hp.wellFormed.node?_removeKey hp.container hkey hok).trans ?_
      rw [if_neg hne, hp.node? hne]
      cases hbelow : x.startsWith (c.child key) <;> simp [hbelow]
    · intro x
      refine (hp.wellFormed.schema?_removeKey hp.container hkey hok).trans ?_
      rw [hp.schema?]
      cases hbelow : x.startsWith (c.child key) <;> simp [hbelow]
  · exact hnode.trans (congrArg some (Node.retain_eq_self fun _ _ => rfl).symm)

theorem reset_declareContainer (h : q.store.WellFormed)
    (hnew : q.store.schema? schema.id = none) (hkeys : q.store.keysAt schema.id = [])
    (hrun : q.attempt (ExceptT.mk (Host.declareContainer schema)) = (.ok (), p)) :
    q.store.Reset p.store schema := by
  obtain ⟨hp, ⟨order, -, hnode⟩, hschema⟩ := declareContainer_leaves h hrun
  have hself := (hnode schema.id).trans (if_pos rfl)
  constructor
  case wellFormed =>
    exact hp
  case container =>
    exact ⟨Store.kind?_eq_some.mpr ⟨_, hself, rfl⟩, (Store.keysAt_of_node? hself).trans hkeys⟩
  case schema? =>
    rw [hschema, if_pos rfl, hnew]
    rfl
  case gone =>
    exact fun hin => absurd hin (Store.not_inInstance_of_keysAt hkeys)
  case kept =>
    intro x hne _
    exact ⟨(hnode x).trans (if_neg hne), (hschema x).trans (if_neg hne)⟩

theorem reloadContainer_leaves (h : q.store.WellFormed)
    (hrun : q.attempt (reloadContainer schema) = (.ok (), p)) :
    q.store.Reset p.store schema := by
  have hrun := (attempt_bind_ok attempt_store).symm.trans hrun
  split at hrun
  · rename_i hkind
    refine reset_declareContainer h ?_ ?_ hrun
    · exact Option.eq_none_iff_forall_ne_some.mpr fun kept hkept =>
        hkind (h.schema_place hkept).2
    · exact List.eq_nil_iff_forall_not_mem.mpr fun key hkey => hkind (h.kind?_of_mem_keysAt hkey)
  · rename_i hkind
    obtain ⟨keys, _, hlift, hrun⟩ := attempt_bind_eq_ok.mp hrun
    obtain ⟨hkeys, rfl⟩ := Prod.mk.inj hlift
    obtain ⟨_, q', hremoved, hrun⟩ := attempt_bind_eq_ok.mp hrun
    have hrun := (attempt_bind_ok attempt_store).symm.trans hrun
    obtain ⟨node, hnode, hperm⟩ := Store.keys_eq_ok hkeys
    have hgone := removeKeys_leaves h hnode (fun key => hperm.mem_iff.mp)
      (hperm.nodup_iff.mpr (h.keys_nodup hnode)) hremoved
    refine hgone.reset hnode hperm ?_
    split at hrun
    · rename_i hnew
      exact reset_declareContainer hgone.wellFormed (Option.isNone_iff_eq_none.mp hnew)
        (hgone.keysAt hperm) hrun
    · rename_i hschema
      obtain ⟨-, rfl⟩ := Prod.mk.inj hrun
      exact .refl hgone.wellFormed (hgone.keysAt hperm) (mt Option.isNone_iff_eq_none.mpr hschema)

theorem reloadContainer_idle (hkind : q.store.kind? schema.id = some .container)
    (hkeys : q.store.keysAt schema.id = []) (hschema : q.store.schema? schema.id ≠ none) :
    q.attempt (reloadContainer schema) = (.ok (), q) := by
  refine (attempt_bind_ok attempt_store).trans ?_
  rw [if_neg (not_not_intro hkind)]
  refine (attempt_bind_ok (attempt_lift (Store.keys_of_container hkind hkeys))).trans ?_
  refine (attempt_bind_ok (show _ = (Except.ok (), q) from rfl)).trans ?_
  refine (attempt_bind_ok attempt_store).trans ?_
  rw [if_neg (mt Option.isNone_iff_eq_none.mp hschema)]
  rfl

/-! ## Values -/

variable {value : Value}

theorem declareValue_leaves (h : q.store.WellFormed)
    (hrun : q.attempt (do
      let _ ← ExceptT.mk (Host.declare value.id value.payload value.access)) = (.ok (), p)) :
    p.store.WellFormed ∧ p.store.Takes value ∧
      (∀ x, value.id ≠ x → p.store.node? x = q.store.node? x) ∧
      ∀ x, p.store.schema? x = q.store.schema? x := by
  obtain ⟨status, hok, rfl⟩ := declare_eq_ok.mp hrun
  obtain ⟨_, payload, hassign, hnode⟩ := h.node?_declared hok
  have hself := (hnode value.id).trans (if_pos rfl)
  refine ⟨h.declare .., ⟨_, payload, _, hself, Payload.repeat_assign hassign⟩, fun x hne => ?_,
    fun _ => Store.schema?_declare⟩
  exact (hnode x).trans (if_neg hne)

theorem declareValue_taken (h : q.store.WellFormed) (htakes : q.store.Takes value) :
    ∃ p, q.attempt (do
      let _ ← ExceptT.mk (Host.declare value.id value.payload value.access)) = (.ok (), p) ∧
        p.store = q.store := by
  obtain ⟨status, payload, keys, hnode, hassign⟩ := htakes
  have hfound : (q.store.found value.id).assign value.payload = .ok (status, payload) := by
    rw [Store.found_of_node? hnode]
    exact hassign
  obtain ⟨_, hok⟩ := (Store.declare_isOk _).mpr ⟨status, payload, hfound⟩
  refine ⟨_, declare_eq_ok.mpr ⟨_, hok, rfl⟩, (h.declare ..).ext h (fun x => ?_) fun x => ?_⟩
  · rw [h.node?_declare hfound, Store.keysAt_of_node? hnode]
    split
    · subst_vars
      exact hnode.symm
    · rfl
  · exact Store.schema?_declare

/-! ## The whole fragment -/

theorem declareValues_leaves (h : q.store.WellFormed) {values : List Value}
    (hdistinct : values.Pairwise fun a b => a.id ≠ b.id)
    (hrun : q.attempt (values.forM fun value => do
      let _ ← ExceptT.mk (Host.declare value.id value.payload value.access)) = (.ok (), p)) :
    (p.store.WellFormed ∧
      (∀ x, (∀ value ∈ values, value.id ≠ x) → p.store.node? x = q.store.node? x) ∧
      ∀ x, p.store.schema? x = q.store.schema? x) ∧ ∀ value ∈ values, p.store.Takes value := by
  refine forM_each
    (I := fun p => p.store.WellFormed ∧
      (∀ x, (∀ value ∈ values, value.id ≠ x) → p.store.node? x = q.store.node? x) ∧
      ∀ x, p.store.schema? x = q.store.schema? x)
    (P := fun value p => p.store.Takes value) hdistinct
    (fun value hmem p p' => ?_) ⟨h, fun _ _ => rfl, fun _ => rfl⟩ hrun
  rintro ⟨hp, hnode, hschema⟩ hstep
  obtain ⟨hp', htakes, hnode', hschema'⟩ := declareValue_leaves hp hstep
  refine ⟨⟨hp', fun x hother => ?_, fun x => (hschema' x).trans (hschema x)⟩, htakes,
    fun other hne hother => hother.congr (hnode' _ hne.symm)⟩
  exact (hnode' x (hother value hmem)).trans (hnode x hother)

theorem reloadContainers_cases {result : Except StoreError Unit} (halone : f.Alone own)
    (h : q.store.WellFormed)
    (hrun : q.attempt (own.schemas.forM reloadContainer) = (result, p)) :
    result = .ok () ∧ q.store.Emptied p.store own.schemas ∨ ∃ e, result = .error e ∧
      Stops own.schemas reloadContainer (fun done p' => q.store.Emptied p'.store done) e p := by
  refine forM_cases (P := fun done p => q.store.Emptied p.store done) ?_ (.nil h) hrun
  intro done schema rest hsplit p p' hp hstep
  refine hp.snoc (reloadContainer_leaves hp.wellFormed hstep) fun other hmem => ?_
  exact (List.pairwise_append.mp (hsplit ▸ halone.pairwise_schemas)).2.2 other hmem schema
    List.mem_cons_self

theorem reload_emptied (h : q.store.WellFormed) (hown : f.alone = .ok own)
    (hrun : q.attempt f.reload = (.ok (), p)) :
    p.store.WellFormed ∧ (∀ value ∈ plainValues own, p.store.Takes value) ∧
      ∃ t, q.store.Emptied t own.schemas ∧
        (∀ x, (∀ value ∈ plainValues own, value.id ≠ x) → p.store.node? x = t.node? x) ∧
        ∀ x, p.store.schema? x = t.schema? x := by
  have halone := alone_of_eq_ok hown
  have hrun := (attempt_bind_ok (attempt_lift hown)).symm.trans hrun
  obtain ⟨_, q', hcontainers, hvalues⟩ := attempt_bind_eq_ok.mp hrun
  obtain ⟨-, hemptied⟩ | ⟨e, hrefused, -⟩ := reloadContainers_cases halone h hcontainers
  case inr => cases hrefused
  obtain ⟨⟨hp, hnode, hschema⟩, htakes⟩ := declareValues_leaves hemptied.wellFormed
    (halone.pairwise_plainValues.imp Id.ne_of_not_startsWith) hvalues
  exact ⟨hp, htakes, q'.store, hemptied, hnode, hschema⟩

theorem reloaded_of_emptied {s t u : Store} (halone : f.Alone own) (h : s.Emptied t own.schemas)
    (hnode : ∀ x, (∀ value ∈ plainValues own, value.id ≠ x) → u.node? x = t.node? x)
    (hschema : ∀ x, u.schema? x = t.schema? x) : f.Reloaded s u := by
  have hcleared (x : Id) : s.Cleared own.schemas x ↔ f.Wipes s x := halone.cleared_iff
  have hother {x : Id} (hx : ¬f.Declares x) :
      (∀ schema ∈ own.schemas, schema.id ≠ x) ∧ ∀ value ∈ plainValues own, value.id ≠ x := by
    obtain ⟨hcontainer, hvalue⟩ := not_or.mp hx
    constructor
    · exact fun schema hmem hid => hcontainer (halone.declaresContainer_iff.mpr ⟨schema, hmem, hid⟩)
    · exact fun value hmem hid => hvalue (halone.declaresPlain_iff.mpr ⟨value, hmem, hid⟩).1
  constructor
  case container =>
    intro c hc
    obtain ⟨schema, hmem, rfl⟩ := halone.declaresContainer_iff.mp hc
    have hsame := hnode schema.id fun value hvalue => halone.plainValue_ne hvalue hmem
    rw [Store.kind?, Store.get?, Store.keysAt, hsame]
    exact h.container hmem
  case schema_kept =>
    intro c kept hc hkept hout
    obtain ⟨schema, hmem, rfl⟩ := halone.declaresContainer_iff.mp hc
    rw [hschema, h.schema_kept hmem (mt (hcleared _).mp hout), hkept]
    rfl
  case schema_new =>
    intro c hc hnew
    obtain ⟨schema, hmem, rfl⟩ := halone.declaresContainer_iff.mp hc
    refine ⟨schema, (halone.schema?_eq _).symm.trans (halone.mem_schemas.mp hmem), ?_⟩
    rw [hschema]
    by_cases hwiped : s.Cleared own.schemas schema.id
    · exact h.schema_new hmem hwiped
    · rw [h.schema_kept hmem hwiped, hnew.resolve_right (mt (hcleared _).mpr hwiped)]
      rfl
  case wiped =>
    intro x hwiped hx
    obtain ⟨hcontainers, hvalues⟩ := hother hx
    rw [Store.has_eq_false, hnode x hvalues]
    exact h.gone hcontainers ((hcleared x).mpr hwiped)
  case kept =>
    intro x hout hx
    obtain ⟨hcontainers, hvalues⟩ := hother hx
    rw [hnode x hvalues, hschema]
    exact h.kept hcontainers (mt (hcleared x).mp hout)

/-- Once the containers are empty and the values as they are declared, there is nothing to reload. -/
theorem reload_restored (h : q.store.WellFormed) (hown : f.alone = .ok own)
    (hcontainers : ∀ schema ∈ own.schemas, q.store.kind? schema.id = some .container ∧
      q.store.keysAt schema.id = [] ∧ q.store.schema? schema.id ≠ none)
    (hvalues : ∀ value ∈ plainValues own, q.store.Takes value) :
    ∃ p, q.attempt f.reload = (.ok (), p) ∧ p.store = q.store := by
  obtain ⟨q', hrun, rfl⟩ := forM_isOk (P := fun p => p = q) own.schemas reloadContainer
    (fun schema hmem p hp => by
      subst hp
      obtain ⟨hkind, hkeys, hschema⟩ := hcontainers schema hmem
      exact ⟨p, reloadContainer_idle hkind hkeys hschema, rfl⟩) rfl
  obtain ⟨p, hrun', hsame⟩ := forM_isOk (P := fun p => p.store = q'.store) (plainValues own)
    (fun value => do
      let _ ← ExceptT.mk (Host.declare value.id value.payload value.access))
    (fun value hmem p hp => by
      rw [← hp] at h hvalues ⊢
      exact declareValue_taken h (hvalues value hmem)) rfl
  refine ⟨p, (attempt_bind_ok (attempt_lift hown)).trans ?_, hsame⟩
  exact (attempt_bind_ok hrun).trans hrun'

/-- A reload that is not refused empties the containers of the fragment, touches nothing else but
what it declares, and changes nothing if it is repeated. -/
theorem reload_settles (changes : List Change)
    (hrun : (Quiet.after {} changes).attempt f.reload = (.ok (), p)) :
    f.Reloaded (Quiet.after {} changes).store p.store ∧
      ∃ p', p.attempt f.reload = (.ok (), p') ∧ p'.store = p.store := by
  have h : (Quiet.after {} changes).store.WellFormed :=
    wellFormed_run Store.wellFormed_empty changes
  obtain ⟨own, _, hlift, -⟩ := attempt_bind_eq_ok.mp hrun
  have hown := (Prod.mk.inj hlift).1
  have halone := alone_of_eq_ok hown
  obtain ⟨hp, htakes, t, hemptied, hnode, hschema⟩ := reload_emptied h hown hrun
  have hreloaded := reloaded_of_emptied halone hemptied hnode hschema
  refine ⟨hreloaded, reload_restored hp hown (fun schema hmem => ?_) htakes⟩
  have hc := halone.declaresContainer_iff.mpr ⟨schema, hmem, rfl⟩
  obtain ⟨hkind, hkeys⟩ := hreloaded.container hc
  exact ⟨hkind, hkeys, hreloaded.registered hc⟩

/-- A container in an instance goes with it and is declared again, and the rest of the instance is
gone. -/
theorem reload_settles_nested :
    let rooms : Id := ⟨["rooms"]⟩
    let lamps : Id := ⟨["rooms", "a", "lamps"]⟩
    let mode : Id := ⟨["rooms", "a", "mode"]⟩
    let f : Fragment := {
      containers := [⟨rooms, true, []⟩, ⟨lamps, false, []⟩]
      values := [⟨mode, .readOnly, .bool true⟩] }
    let q := Quiet.after {} [
      .declareContainer ⟨rooms, .ordered, []⟩, .addKey rooms "a" .local,
      .declareContainer ⟨lamps, .ordered, []⟩, .addKey lamps "k" .remote,
      .declare ⟨["title"]⟩ (.text "A") .readWrite]
    ∃ p, q.attempt f.reload = (.ok (), p) ∧ p.store.has ⟨["rooms", "a"]⟩ = false ∧
      p.store.kind? lamps = some .container ∧
        p.store.node? ⟨["title"]⟩ = q.store.node? ⟨["title"]⟩ ∧
          ∃ p', p.attempt f.reload = (.ok (), p') ∧ p'.store = p.store := by
  intro rooms lamps mode f q
  obtain ⟨p, hrun⟩ : ∃ p, q.attempt f.reload = (.ok (), p) := attempt_eq_ok (by decide +kernel)
  obtain ⟨hreloaded, hagain⟩ := reload_settles _ hrun
  refine ⟨p, hrun, hreloaded.wiped ?_ ?_, (hreloaded.container ?_).1, (hreloaded.kept ?_ ?_).1,
    hagain⟩
  all_goals decide +kernel

end Quiet

end ValueTree
