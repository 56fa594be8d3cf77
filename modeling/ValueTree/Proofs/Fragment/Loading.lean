import ValueTree.Proofs.Fragment.Alone
import ValueTree.Proofs.Payload.Repeat
import ValueTree.Proofs.Store.Untouched

/-!
# What loading leaves

Loading adds what is missing and keeps what is there, wherever it stops. Once it has come to its end
all that the fragment declares is in place, so that a second time there is nothing left to do.
-/

namespace ValueTree

namespace Store

variable {s t u : Store} {id x : Id} {payload : Payload} {access : Access} {node : Node}

/-- `t` has all that `s` has, with its keys and with each payload that is set. -/
structure Grown (s t : Store) : Prop where
  has {x : Id} : s.has x = true → t.has x = true
  keysAt (x : Id) : t.keysAt x = s.keysAt x
  payload? {x : Id} {payload : Payload} :
    s.payload? x = some payload → payload ≠ .unset → t.payload? x = some payload

namespace Grown

theorem refl (s : Store) : s.Grown s := ⟨id, fun _ => rfl, fun h _ => h⟩

theorem trans (h : s.Grown t) (h' : t.Grown u) : s.Grown u where
  has hx := h'.has (h.has hx)
  keysAt x := (h'.keysAt x).trans (h.keysAt x)
  payload? hx hset := h'.payload? (h.payload? hx hset) hset

/-- One node is new. -/
theorem of_node? (hnode : ∀ x, t.node? x = if id = x then some node else s.node? x)
    (hkeys : node.keys = s.keysAt id)
    (hpayload : s.found id = .unset ∨ node.value.payload = s.found id) : s.Grown t := by
  constructor
  · intro x hx
    rw [Store.has, hnode]
    split
    · rfl
    · exact hx
  · intro x
    rw [Store.keysAt, hnode]
    split
    · subst_vars
      exact hkeys
    · rfl
  · intro x payload hx hset
    rw [Store.payload?, get?, hnode]
    split
    · rename_i hid
      subst hid
      have hfound : s.found id = payload := by rw [found, hx, Option.getD_some]
      rw [hfound] at hpayload
      exact congrArg some (hpayload.resolve_left hset)
    · exact hx

end Grown

/-- What a declaration writes over what it finds decides, also when it is refused. -/
theorem WellFormed.grown_declare (h : s.WellFormed)
    (hkeep : ∀ status result, (s.found id).assign payload = .ok (status, result) →
      s.found id = .unset ∨ result = s.found id) :
    s.Grown (s.declare id payload access).store := by
  cases hresult : (s.declare id payload access).result with
  | ok status =>
    obtain ⟨status, result, hassign, hnode⟩ := h.node?_declared hresult
    exact .of_node? hnode rfl (hkeep status result hassign)
  | error e =>
    have hvain : (s.declare id payload access).result ≠ .ok .success := by
      rw [hresult]
      nofun
    rcases (declare_idle hvain).2 with ⟨-, hstore⟩ | ⟨node, hnode, hstore⟩
    · rw [hstore]
      exact .refl s
    · rw [hstore]
      exact .of_node? (fun x => node?_put _) (keysAt_of_node? hnode).symm
        (Or.inr (found_of_node? hnode).symm)

/-- The container is there as its schema wants it. -/
structure Hosts (s : Store) (schema : Schema) : Prop where
  schema?_eq : s.schema? schema.id = some schema
  exists_node : ∃ order keys,
    s.node? schema.id = some ⟨⟨schema.id, .readWrite, .container order⟩, keys⟩

theorem Hosts.congr {schema : Schema} (h : s.Hosts schema)
    (hschema : t.schema? schema.id = s.schema? schema.id)
    (hnode : t.node? schema.id = s.node? schema.id) : t.Hosts schema :=
  ⟨hschema.trans h.schema?_eq, hnode ▸ h.exists_node⟩

/-- `t` is `s` with these containers declared; one that was there keeps its order and its keys. -/
structure Declared (s t : Store) (schemas : List Schema) : Prop where
  wellFormed : t.WellFormed
  container {schema : Schema} : schema ∈ schemas → ∃ order,
    (s.found schema.id = .unset ∧ order = schema.order ∨ s.found schema.id = .container order) ∧
      t.node? schema.id = some ⟨⟨schema.id, .readWrite, .container order⟩, s.keysAt schema.id⟩
  schema? {schema : Schema} : schema ∈ schemas → t.schema? schema.id = some schema
  kept {x : Id} : (∀ schema ∈ schemas, schema.id ≠ x) →
    t.node? x = s.node? x ∧ t.schema? x = s.schema? x

theorem Declared.nil (h : s.WellFormed) : s.Declared s [] where
  wellFormed := h
  container := nofun
  schema? := nofun
  kept _ := ⟨rfl, rfl⟩

end Store

namespace Quiet

open Fragment

variable {q p : Quiet} {f : Fragment} {own : Store}

/-! ## What is kept -/

theorem attempt_loadValue (value : Value) :
    q.attempt (loadValue value) =
      if q.store.has value.id then (.ok (), q)
      else
        let declared := q.store.declare value.id value.payload value.access
        (declared.result.map fun _ => (), ⟨declared.store, q.events ++ declared.events⟩) := by
  refine (attempt_bind_ok attempt_store).trans ?_
  cases q.store.has value.id with
  | true => rfl
  | false => exact attempt_discard

/-- What loading keeps is what declarations of containers and of absent values keep. -/
theorem load_keeps {P : Store → Prop}
    (hdeclare : ∀ (s : Store) (schema : Schema), f.DeclaresContainer schema.id → P s →
      P (s.declare schema.id (.container schema.order) .readWrite).store)
    (hschema : ∀ (s : Store) (schema : Schema), f.DeclaresContainer schema.id →
      schema.fault? = none → P s → s.kind? schema.id = some .container → P (s.putSchema schema))
    (hvalue : ∀ (s : Store) (value : Value), f.DeclaresPlain value.id → P s →
      s.has value.id = false → P (s.declare value.id value.payload value.access).store)
    (h : P q.store) : P (q.attempt f.load).2.store := by
  refine bind_keeps (P := fun q => P q.store) h fun own p hlift hp => ?_
  have halone : f.Alone own := alone_of_eq_ok (Prod.mk.inj hlift).1
  refine bind_keeps (P := fun q => P q.store) ?_ fun _ p' _ hp' => ?_
  · refine forM_keeps (P := fun q => P q.store) (fun schema hmem q hq => ?_) hp
    have hdeclared : f.DeclaresContainer schema.id :=
      halone.declaresContainer_iff.mpr ⟨schema, hmem, rfl⟩
    have hfirst := hdeclare q.store schema hdeclared hq
    rw [attempt_declareContainer]
    split
    · exact hq
    · dsimp only
      split
      · exact hfirst
      · exact hschema _ schema hdeclared ‹_› hfirst (Store.kind?_declare ‹_›)
  · refine forM_keeps (P := fun q => P q.store) (fun value hmem q hq => ?_) hp'
    rw [attempt_loadValue]
    cases hhas : q.store.has value.id with
    | true => exact hq
    | false =>
      exact hvalue q.store value (halone.declaresPlain_iff.mpr ⟨value, hmem, rfl⟩) hq hhas

theorem grown_load (h : q.store.WellFormed) : q.store.Grown (q.attempt f.load).2.store := by
  refine (load_keeps (f := f) (P := fun s => s.WellFormed ∧ q.store.Grown s) ?_ ?_ ?_
    ⟨h, .refl _⟩).2
  · rintro s schema - ⟨hs, hgrown⟩
    refine ⟨hs.declare .., hgrown.trans (hs.grown_declare fun _ _ hassign => ?_)⟩
    exact (Payload.container_of_assign hassign).imp_left And.left
  · rintro s schema - - ⟨hs, hgrown⟩ hkind
    exact ⟨hs.putSchema hkind, hgrown.has, hgrown.keysAt, hgrown.payload?⟩
  · rintro s value - ⟨hs, hgrown⟩ hnew
    refine ⟨hs.declare .., hgrown.trans (hs.grown_declare fun _ _ _ => ?_)⟩
    exact Or.inl (Store.found_of_none (Store.has_eq_false.mp hnew))

/-! ## Declaring containers -/

theorem declareContainer_isOk {schema : Schema} (hfault : schema.fault? = none)
    (hkind : ∀ kind, q.store.kind? schema.id = some kind → kind = .unset ∨ kind = .container) :
    ∃ p, q.attempt (ExceptT.mk (Host.declareContainer schema)) = (.ok (), p) := by
  have hfound : (q.store.found schema.id).kind = .unset ∨
      (q.store.found schema.id).kind = .container := by
    cases hnode : q.store.node? schema.id with
    | none => exact Or.inl (congrArg Payload.kind (Store.found_of_none hnode))
    | some node =>
      rw [Store.found_of_node? hnode]
      exact hkind _ (Store.kind?_eq_some.mpr ⟨node, hnode, rfl⟩)
  obtain ⟨status, hok⟩ := (Store.declare_isOk .readWrite).mpr
    (Payload.assign_container hfound schema.order)
  rw [attempt_declareContainer, hfault]
  dsimp only
  rw [hok]
  exact ⟨_, rfl⟩

/-- What a declaration of a container leaves: the container with the keys that were there, and its
schema. -/
theorem declareContainer_leaves {schema : Schema} (h : q.store.WellFormed)
    (hrun : q.attempt (ExceptT.mk (Host.declareContainer schema)) = (.ok (), p)) :
    p.store.WellFormed ∧
      (∃ order, (q.store.found schema.id = .unset ∧ order = schema.order ∨
          q.store.found schema.id = .container order) ∧
        ∀ x, p.store.node? x =
          if schema.id = x then
            some ⟨⟨schema.id, .readWrite, .container order⟩, q.store.keysAt schema.id⟩
          else q.store.node? x) ∧
      ∀ x, p.store.schema? x = if schema.id = x then some schema else q.store.schema? x := by
  obtain ⟨-, status, hok, hstore⟩ := declareContainer_eq_ok hrun
  obtain ⟨_, result, hassign, hnode⟩ := h.node?_declared hok
  rw [hstore]
  refine ⟨(h.declare ..).putSchema (Store.kind?_declare hok), ?_, fun x => ?_⟩
  · cases result with
    | container order =>
      refine ⟨order, (Payload.container_of_assign hassign).imp ?_ Eq.symm, hnode⟩
      exact And.imp_right Payload.container.inj
    | _ => cases (Payload.kind_of_assign hassign).1
  · rw [Store.schema?_putSchema, Store.schema?_declare]

/-- One container more, if it has not been declared yet. -/
theorem declared_snoc {s : Store} {done : List Schema} {schema : Schema}
    (h : s.Declared q.store done) (hfresh : ∀ other ∈ done, other.id ≠ schema.id)
    (hrun : q.attempt (ExceptT.mk (Host.declareContainer schema)) = (.ok (), p)) :
    s.Declared p.store (done ++ [schema]) := by
  obtain ⟨hp, ⟨order, horder, hnode⟩, hschema⟩ := declareContainer_leaves h.wellFormed hrun
  have hbefore := (h.kept hfresh).1
  constructor
  case wellFormed =>
    exact hp
  case container =>
    intro other hmem
    rcases List.mem_append.mp hmem with hmem | hmem
    · rw [hnode, if_neg (hfresh other hmem).symm]
      exact h.container hmem
    · obtain rfl := List.mem_singleton.mp hmem
      refine ⟨order, ?_, ?_⟩
      · rwa [Store.found, Store.payload?, Store.get?, hbefore] at horder
      · rw [hnode, if_pos rfl, Store.keysAt, hbefore, ← Store.keysAt]
  case schema? =>
    intro other hmem
    rcases List.mem_append.mp hmem with hmem | hmem
    · rw [hschema, if_neg (hfresh other hmem).symm]
      exact h.schema? hmem
    · obtain rfl := List.mem_singleton.mp hmem
      rw [hschema, if_pos rfl]
  case kept =>
    intro x hother
    obtain ⟨hdone, hlast⟩ := List.forall_mem_append.mp hother
    have hne := hlast schema (List.mem_singleton.mpr rfl)
    rw [hnode, hschema, if_neg hne, if_neg hne]
    exact h.kept hdone

theorem declareContainers_cases {result : Except StoreError Unit} (halone : f.Alone own)
    (h : q.store.WellFormed)
    (hrun : q.attempt (own.schemas.forM fun schema => ExceptT.mk (Host.declareContainer schema)) =
      (result, p)) :
    result = .ok () ∧ q.store.Declared p.store own.schemas ∨ ∃ e, result = .error e ∧
      Stops own.schemas (fun schema => ExceptT.mk (Host.declareContainer schema))
        (fun done p' => q.store.Declared p'.store done) e p := by
  refine forM_cases (P := fun done p => q.store.Declared p.store done) ?_ (.nil h) hrun
  intro done schema rest hsplit p p' hp hstep
  exact declared_snoc hp (fun other hmem => halone.fresh_schema hsplit hmem) hstep

theorem declareContainer_hosted {schema : Schema} (h : q.store.WellFormed)
    (hfault : schema.fault? = none) (hhosts : q.store.Hosts schema) :
    ∃ p, q.attempt (ExceptT.mk (Host.declareContainer schema)) = (.ok (), p) ∧
      p.store = q.store := by
  obtain ⟨kept, keys, hnode⟩ := hhosts.exists_node
  obtain ⟨p, hrun⟩ := declareContainer_isOk hfault fun kind hkind => by
    rw [Store.kind?_eq_some.mpr ⟨_, hnode, rfl⟩] at hkind
    exact Or.inr (Option.some.inj hkind).symm
  obtain ⟨hp, ⟨order, hkept, hnode'⟩, hschema⟩ := declareContainer_leaves h hrun
  rw [Store.found_of_node? hnode] at hkept
  refine ⟨p, hrun, hp.ext h (fun x => ?_) fun x => ?_⟩
  · rw [hnode']
    split
    · subst_vars
      obtain ⟨⟨⟩, -⟩ | ⟨⟨⟩⟩ := hkept
      rw [hnode, Store.keysAt_of_node? hnode]
    · rfl
  · rw [hschema]
    split
    · subst_vars
      exact hhosts.schema?_eq.symm
    · rfl

/-! ## Whether loading is refused -/

theorem loadValue_isOk {value : Value} (h : value.payload.Legal) :
    ∃ p, q.attempt (loadValue value) = (.ok (), p) := by
  rw [attempt_loadValue]
  cases hhas : q.store.has value.id with
  | true => exact ⟨q, rfl⟩
  | false =>
    have hfound := Store.found_of_none (Store.has_eq_false.mp hhas)
    obtain ⟨_, hassign⟩ := h.assign_absent
    obtain ⟨status, hok⟩ := (Store.declare_isOk value.access).mpr ⟨_, _, hfound ▸ hassign⟩
    dsimp only
    rw [if_neg Bool.false_ne_true, hok]
    exact ⟨_, rfl⟩

/-- What is there is left alone, and what is declared is legal. -/
theorem loadValues_isOk (halone : f.Alone own) :
    ∃ p, q.attempt ((plainValues own).forM loadValue) = (.ok (), p) := by
  obtain ⟨p, hrun, -⟩ := forM_isOk (q := q) (P := fun _ => True) (plainValues own) loadValue
    (fun value hmem p _ => by
      obtain ⟨p', hstep⟩ := loadValue_isOk (q := p) (halone.legal_plainValue hmem)
      exact ⟨p', hstep, trivial⟩) trivial
  exact ⟨p, hrun⟩

/-- Nothing is refused if no container of the fragment is another value already. -/
theorem load_isOk (h : q.store.WellFormed) (hown : f.alone = .ok own)
    (hkinds : ∀ c kind, f.DeclaresContainer c → q.store.kind? c = some kind →
      kind = .unset ∨ kind = .container) : ∃ p, q.attempt f.load = (.ok (), p) := by
  have halone := alone_of_eq_ok hown
  obtain ⟨q', hcontainers, -⟩ := forM_isOk
    (P := fun p => p.store.WellFormed ∧ ∀ c kind, f.DeclaresContainer c →
      p.store.kind? c = some kind → kind = .unset ∨ kind = .container)
    own.schemas (fun schema => ExceptT.mk (Host.declareContainer schema))
    (fun schema hmem p ⟨hp, hkinds⟩ => by
      have hdeclared := halone.declaresContainer_iff.mpr ⟨schema, hmem, rfl⟩
      obtain ⟨p', hrun⟩ := declareContainer_isOk (halone.fault? (halone.mem_schemas.mp hmem))
        fun kind => hkinds schema.id kind hdeclared
      obtain ⟨hp', ⟨order, -, hnode⟩, -⟩ := declareContainer_leaves hp hrun
      refine ⟨p', hrun, hp', fun c kind hc hkind => ?_⟩
      rw [Store.kind?, Store.get?, hnode] at hkind
      split at hkind
      · exact Or.inr (Option.some.inj hkind).symm
      · exact hkinds c kind hc hkind)
    ⟨h, hkinds⟩
  obtain ⟨p, hvalues⟩ := loadValues_isOk (q := q') halone
  refine ⟨p, (attempt_bind_ok (attempt_lift hown)).trans ?_⟩
  exact (attempt_bind_ok hcontainers).trans hvalues

/-! ## Loading again -/

theorem hosts_declareContainer {schema : Schema} (h : q.store.WellFormed)
    (hrun : q.attempt (ExceptT.mk (Host.declareContainer schema)) = (.ok (), p)) :
    p.store.Hosts schema ∧
      ∀ other : Schema, schema.id ≠ other.id → q.store.Hosts other → p.store.Hosts other := by
  obtain ⟨-, ⟨order, -, hnode⟩, hschema⟩ := declareContainer_leaves h hrun
  constructor
  · exact ⟨(hschema _).trans (if_pos rfl), order, _, (hnode _).trans (if_pos rfl)⟩
  · intro other hne hother
    exact hother.congr ((hschema _).trans (if_neg hne)) ((hnode _).trans (if_neg hne))

/-- All that a fragment declares is in place. -/
structure Provides (s own : Store) : Prop where
  hosts : ∀ schema ∈ own.schemas, s.Hosts schema
  has : ∀ value ∈ plainValues own, s.has value.id = true

theorem loadValue_leaves {value : Value} (h : q.store.WellFormed)
    (hrun : q.attempt (loadValue value) = (.ok (), p)) :
    p.store.WellFormed ∧ p.store.has value.id = true ∧
      (∀ x, q.store.has x = true → p.store.node? x = q.store.node? x) ∧
      ∀ x, p.store.schema? x = q.store.schema? x := by
  rw [attempt_loadValue] at hrun
  split at hrun
  · rename_i hhas
    obtain ⟨-, rfl⟩ := Prod.mk.inj hrun
    exact ⟨h, hhas, fun _ _ => rfl, fun _ => rfl⟩
  · rename_i hnew
    obtain ⟨hok, rfl⟩ := Prod.mk.inj hrun
    cases hresult : (q.store.declare value.id value.payload value.access).result with
    | error e =>
      rw [hresult] at hok
      cases hok
    | ok status =>
      refine ⟨h.declare .., (h.has_declared hresult).mpr (Or.inl rfl), fun x hx => ?_,
        fun _ => Store.schema?_declare⟩
      exact Store.node?_declare_ne fun hsame => hnew (hsame ▸ hx)

theorem load_provides (h : q.store.WellFormed) (hrun : q.attempt f.load = (.ok (), p)) :
    ∃ own, f.alone = .ok own ∧ Provides p.store own := by
  obtain ⟨own, _, hlift, hrun⟩ := attempt_bind_eq_ok.mp hrun
  obtain ⟨hown, rfl⟩ := Prod.mk.inj hlift
  obtain ⟨_, q', hcontainers, hvalues⟩ := attempt_bind_eq_ok.mp hrun
  obtain ⟨h', hhosts⟩ := forM_each (I := fun p => p.store.WellFormed)
    (P := fun schema p => p.store.Hosts schema) (alone_of_eq_ok hown).pairwise_schemas
    (fun schema _ p p' hp hstep => by
      obtain ⟨hnew, hold⟩ := hosts_declareContainer hp hstep
      refine ⟨(declareContainer_leaves hp hstep).1, hnew, fun other hapart hother => ?_⟩
      exact hold other (Id.ne_of_not_startsWith hapart).symm hother)
    h hcontainers
  obtain ⟨⟨-, hhosts⟩, hhas⟩ := forM_each
    (I := fun p => p.store.WellFormed ∧ ∀ schema ∈ own.schemas, p.store.Hosts schema)
    (P := fun value p => p.store.has value.id = true)
    (List.pairwise_of_forall fun _ _ => trivial)
    (fun value _ p p' ⟨hp, hhosts⟩ hstep => by
      obtain ⟨hp', hhas, hkept, hschema⟩ := loadValue_leaves hp hstep
      refine ⟨⟨hp', fun schema hmem => ?_⟩, hhas, fun other _ hother => ?_⟩
      · obtain ⟨order, keys, hnode⟩ := (hhosts schema hmem).exists_node
        exact (hhosts schema hmem).congr (hschema _) (hkept _ (Store.has_eq_true.mpr ⟨_, hnode⟩))
      · rwa [Store.has, hkept _ hother])
    ⟨h', hhosts⟩ hvalues
  exact ⟨own, hown, hhosts, hhas⟩

/-- With everything in place there is nothing left to do. -/
theorem load_provided (h : q.store.WellFormed) (hown : f.alone = .ok own)
    (hprovides : Provides q.store own) :
    ∃ p, q.attempt f.load = (.ok (), p) ∧ p.store = q.store := by
  have halone := alone_of_eq_ok hown
  obtain ⟨q', hcontainers, hsame⟩ := forM_isOk (P := fun p => p.store = q.store)
    own.schemas (fun schema => ExceptT.mk (Host.declareContainer schema))
    (fun schema hmem p hp => by
      rw [← hp] at h hprovides ⊢
      exact declareContainer_hosted h (halone.fault? (halone.mem_schemas.mp hmem))
        (hprovides.hosts schema hmem)) rfl
  obtain ⟨p, hvalues, hsame⟩ := forM_isOk (P := fun p => p.store = q.store) (plainValues own) loadValue
    (fun value hmem p hp => by
      refine ⟨p, ?_, hp⟩
      rw [attempt_loadValue, hp, if_pos (hprovides.has value hmem)]) hsame
  refine ⟨p, (attempt_bind_ok (attempt_lift hown)).trans ?_, hsame⟩
  exact (attempt_bind_ok hcontainers).trans hvalues

/-- Loading only adds, even if it is refused on its way. Once it was not refused, loading again is
not refused either, and changes nothing. -/
theorem load_adds (changes : List Change) (f : Fragment) :
    let q := Quiet.after {} changes
    q.store.Grown (q.attempt f.load).2.store ∧
      ∀ p, q.attempt f.load = (.ok (), p) →
        ∃ p', p.attempt f.load = (.ok (), p') ∧ p'.store = p.store := by
  intro q
  have h : q.store.WellFormed := wellFormed_run Store.wellFormed_empty changes
  refine ⟨grown_load h, fun p hrun => ?_⟩
  have hp := (MadeOfChanges.load f).wellFormed h
  rw [hrun] at hp
  obtain ⟨own, hown, hprovides⟩ := load_provides h hrun
  exact load_provided hp hown hprovides

/-- A container that is there keeps its key, a value keeps what it is, and another one is new. -/
theorem load_adds_title :
    let lamps : Id := ⟨["lamps"]⟩
    let mode : Id := ⟨["mode"]⟩
    let f : Fragment := {
      containers := [⟨lamps, false, []⟩]
      values := [⟨mode, .readOnly, .bool true⟩, ⟨⟨["title"]⟩, .readWrite, .text "A"⟩] }
    let q := Quiet.after {} [
      .declareContainer ⟨lamps, .ordered, []⟩, .addKey lamps "k" .remote,
      .declare mode (.bool false) .readWrite]
    ∃ p, q.attempt f.load = (.ok (), p) ∧ p.store.keysAt lamps = ["k"] ∧
      p.store.payload? mode = some (.bool false) ∧
        ∃ p', p.attempt f.load = (.ok (), p') ∧ p'.store = p.store := by
  intro lamps mode f q
  obtain ⟨p, hrun⟩ : ∃ p, q.attempt f.load = (.ok (), p) := attempt_eq_ok (by decide +kernel)
  obtain ⟨hgrown, hagain⟩ := load_adds _ f
  rw [hrun] at hgrown
  refine ⟨p, hrun, (hgrown.keysAt lamps).trans ?_, hgrown.payload? ?_ ?_, hagain p hrun⟩
  all_goals decide +kernel

end Quiet

end ValueTree
