import ValueTree.Proofs.Fragment.Resetting
import ValueTree.Proofs.Fragment.Unloading

/-!
# What a refusal leaves

A fragment has to fit an empty store before a live one is touched, so what is wrong with the fragment
itself leaves no trace. Whether it gets along with the live values comes out one declaration at a
time, and nothing is taken back: what stands before the declaration that is refused is done, and what
stands behind it is not.
-/

namespace ValueTree

/-- Only what has a kind already, and another one, does not become a container. -/
theorem Payload.assign_container_error {p : Payload} {order : KeyOrder} {reason : SetError}
    (h : p.assign (.container order) = .error reason) :
    p.kind ≠ .unset ∧ p.kind ≠ .container ∧ reason = .invalidType p.kind .container := by
  have hother : ¬(p.kind = .unset ∨ p.kind = .container) := by
    intro hkind
    obtain ⟨status, result, hok⟩ := assign_container hkind order
    rw [hok] at h
    cases h
  obtain ⟨hset, hplain⟩ := not_or.mp hother
  have hkinds : p.kind ≠ (container order).kind := hplain
  rw [assign, if_neg hset, if_pos hkinds] at h
  exact ⟨hset, hplain, (Except.error.inj h).symm⟩

namespace Store

variable {s t u : Store} {id c x : Id} {payload : Payload} {access : Access} {e : StoreError}
  {schema : Schema} {done : List Schema}

/-- `t` is `s` up to the access mode of one value. -/
structure SameBut (s t : Store) (id : Id) : Prop where
  agrees : t.Agrees s
  node? {x : Id} : x ≠ id → t.node? x = s.node? x
  schema? (x : Id) : t.schema? x = s.schema? x

/-- A value of another kind is where a container is to be, and it is named as the reason. -/
def Clashes (s : Store) (c : Id) (e : StoreError) : Prop :=
  ∃ kind, s.kind? c = some kind ∧ kind ≠ .unset ∧ kind ≠ .container ∧
    e = .rejected c (.invalidType kind .container)

theorem Clashes.congr (h : t.Clashes c e) (hnode : t.node? c = s.node? c) : s.Clashes c e := by
  obtain ⟨kind, hkind, hother⟩ := h
  rw [kind?, get?, hnode] at hkind
  exact ⟨kind, hkind, hother⟩

/-! ## One declaration -/

theorem declare_eq_error (h : (s.declare id payload access).result = .error e) :
    ∃ reason, (s.found id).assign payload = .error reason ∧ e = .rejected id reason := by
  cases hassign : (s.found id).assign payload with
  | ok out =>
    obtain ⟨status, hok⟩ := (declare_isOk access).mpr ⟨out.1, out.2, hassign⟩
    rw [hok] at h
    cases h
  | error reason =>
    refine ⟨reason, rfl, ?_⟩
    unfold declare at h
    split at h
    · rename_i hnone
      rw [found_of_none hnone] at hassign
      rw [create, hassign] at h
      exact (Except.error.inj h).symm
    · rename_i node hnode
      rw [found_of_node? hnode] at hassign
      have hvalue : ({ node.value with access } : Value).assign payload = .error reason := by
        rw [Value.assign, hassign]
        rfl
      rw [assignAt, hvalue] at h
      exact (Except.error.inj h).symm

theorem sameBut_of_refused (h : (s.declare id payload access).result = .error e) :
    s.SameBut (s.declare id payload access).store id := by
  have hvain : (s.declare id payload access).result ≠ .ok .success := by
    rw [h]
    nofun
  obtain ⟨-, ⟨-, hstore⟩ | ⟨node, hnode, hstore⟩⟩ := declare_idle hvain
  · rw [hstore]
    exact ⟨fun _ => rfl, fun _ => rfl, fun _ => rfl⟩
  · rw [hstore]
    refine ⟨Agrees.put_left (fun _ => rfl) hnode rfl, fun hne => ?_, fun _ => rfl⟩
    rw [node?_put, if_neg hne.symm]

/-! ## Emptied containers -/

theorem Emptied.clashes (h : s.Emptied t done) (hfresh : ∀ other ∈ done, other.id ≠ c)
    (hclash : t.Clashes c e) : s.Clashes c e := by
  by_cases hcleared : s.Cleared done c
  · obtain ⟨kind, hkind, -⟩ := hclash
    rw [kind?, get?, h.gone hfresh hcleared] at hkind
    cases hkind
  · exact hclash.congr (h.kept hfresh hcleared).1

/-- What refuses a legal payload was there before. -/
theorem Emptied.refuses {reason : SetError} (h : s.Emptied t done)
    (hfresh : ∀ other ∈ done, other.id ≠ x) (hlegal : payload.Legal)
    (hrefused : (t.found x).assign payload = .error reason) :
    ∃ live, s.payload? x = some live ∧ live.assign payload = .error reason := by
  cases hnode : t.node? x with
  | none =>
    obtain ⟨status, hok⟩ := hlegal.assign_absent
    rw [found_of_none hnode, hok] at hrefused
    cases hrefused
  | some node =>
    have hcleared : ¬s.Cleared done x := by
      intro hcleared
      rw [h.gone hfresh hcleared] at hnode
      cases hnode
    rw [found_of_node? hnode] at hrefused
    rw [(h.kept hfresh hcleared).1] at hnode
    refine ⟨_, ?_, hrefused⟩
    rw [payload?, get?, hnode]
    rfl

theorem Emptied.keysNamed (h : s.Emptied t done) (hnamed : s.KeysNamed) : t.KeysNamed := by
  intro x key hkey
  by_cases hx : ∃ schema ∈ done, schema.id = x
  · obtain ⟨schema, hmem, rfl⟩ := hx
    rw [(h.container hmem).2] at hkey
    cases hkey
  · have hother : ∀ schema ∈ done, schema.id ≠ x := fun schema hmem hid => hx ⟨schema, hmem, hid⟩
    by_cases hcleared : s.Cleared done x
    · rw [keysAt, h.gone hother hcleared] at hkey
      cases hkey
    · rw [keysAt, (h.kept hother hcleared).1] at hkey
      exact hnamed x key hkey

theorem keys_isOk (h : s.kind? c = some .container) : ∃ keys, s.keys c = .ok keys := by
  obtain ⟨node, hnode, hkind⟩ := kind?_eq_some.mp h
  unfold keys
  rw [hnode]
  unfold Value.kind at hkind
  cases hpayload : node.value.payload with
  | container order => cases order <;> simp [hpayload]
  | _ =>
    rw [hpayload] at hkind
    cases hkind

/-- A container gives up any key, and stays. -/
theorem WellFormed.removeKey_isOk {key : String} (origin : Origin) (h : s.WellFormed)
    (hkind : s.kind? c = some .container) (hname : Id.segmentFault? key = none) :
    ∃ answer, (s.removeKey c key origin).result = .ok answer ∧
      (s.removeKey c key origin).store.kind? c = some .container := by
  obtain ⟨node, hnode, hcontainer⟩ := kind?_eq_some.mp hkind
  by_cases hkey : key ∈ node.keys
  · have hok : (s.removeKey c key origin).result = .ok true := by
      rw [removeKey_old hnode hcontainer hname hkey]
    refine ⟨true, hok, ?_⟩
    rw [kind?, get?, h.node?_removeKey hnode hkey hok, Id.not_startsWith_child,
      if_neg Bool.false_ne_true, if_pos rfl]
    exact congrArg some hcontainer
  · rw [removeKey_absent hnode hcontainer hname hkey]
    exact ⟨false, rfl, hkind⟩

end Store

namespace Quiet

open Fragment

variable {q p : Quiet} {f : Fragment} {own : Store} {schema : Schema} {e : StoreError}

theorem declareContainer_refused (hfault : schema.fault? = none)
    (hrun : q.attempt (ExceptT.mk (Host.declareContainer schema)) = (.error e, p)) :
    q.store.Clashes schema.id e ∧ q.store.SameBut p.store schema.id := by
  rw [attempt_declareContainer, hfault] at hrun
  dsimp only at hrun
  split at hrun
  · rename_i hresult
    obtain ⟨he, rfl⟩ := Prod.mk.inj hrun
    obtain rfl := Except.error.inj he
    obtain ⟨reason, hassign, rfl⟩ := Store.declare_eq_error hresult
    obtain ⟨hset, hplain, rfl⟩ := Payload.assign_container_error hassign
    refine ⟨⟨_, ?_, hset, hplain, rfl⟩, Store.sameBut_of_refused hresult⟩
    cases hnode : q.store.node? schema.id with
    | none =>
      rw [Store.found_of_none hnode] at hset
      exact absurd rfl hset
    | some node =>
      rw [Store.found_of_node? hnode]
      exact Store.kind?_eq_some.mpr ⟨node, hnode, rfl⟩
  · cases hrun

/-- A container that is there is emptied without fail. -/
theorem reloadContainer_isOk (h : q.store.WellFormed) (hnamed : q.store.KeysNamed)
    (hfault : schema.fault? = none) (hkind : q.store.kind? schema.id = some .container) :
    ∃ p, q.attempt (reloadContainer schema) = (.ok (), p) := by
  obtain ⟨keys, hkeys⟩ := Store.keys_isOk hkind
  obtain ⟨node, hnode, hperm⟩ := Store.keys_eq_ok hkeys
  obtain ⟨p, hremoved, hp, hpkind⟩ := forM_isOk
    (P := fun p => p.store.WellFormed ∧ p.store.kind? schema.id = some .container) keys
    (fun key => do
      let _ ← ExceptT.mk (Host.removeKey schema.id key .local))
    (fun key hkey p ⟨hp, hpkind⟩ => by
      have hname := hnamed schema.id key (by
        rw [Store.keysAt_of_node? hnode]
        exact hperm.mem_iff.mp hkey)
      obtain ⟨answer, hok, hstays⟩ := hp.removeKey_isOk .local hpkind hname
      exact ⟨_, removeKey_eq_ok.mpr ⟨answer, hok, rfl⟩, hp.removeKey .., hstays⟩) ⟨h, hkind⟩
  have hrun : q.attempt (reloadContainer schema) =
      p.attempt (if (p.store.schema? schema.id).isNone then
        ExceptT.mk (Host.declareContainer schema) else pure ()) := by
    refine (attempt_bind_ok attempt_store).trans ?_
    rw [if_neg (not_not_intro hkind)]
    refine (attempt_bind_ok (attempt_lift hkeys)).trans ?_
    exact (attempt_bind_ok hremoved).trans (attempt_bind_ok attempt_store)
  rw [hrun]
  split
  · refine declareContainer_isOk hfault fun kind hk => Or.inr ?_
    rw [hpkind] at hk
    exact (Option.some.inj hk).symm
  · exact ⟨p, rfl⟩

theorem reloadContainer_refused (h : q.store.WellFormed) (hnamed : q.store.KeysNamed)
    (hfault : schema.fault? = none)
    (hrun : q.attempt (reloadContainer schema) = (.error e, p)) :
    q.store.Clashes schema.id e ∧ q.store.SameBut p.store schema.id := by
  by_cases hkind : q.store.kind? schema.id = some .container
  · obtain ⟨p', hok⟩ := reloadContainer_isOk h hnamed hfault hkind
    rw [hok] at hrun
    cases hrun
  · have hrun := (attempt_bind_ok attempt_store).symm.trans hrun
    rw [if_pos hkind] at hrun
    exact declareContainer_refused hfault hrun

theorem declareValue_refused {value : Value} (hrun : q.attempt (do
      let _ ← ExceptT.mk (Host.declare value.id value.payload value.access)) = (.error e, p)) :
    q.store.SameBut p.store value.id ∧ ∃ reason, (q.store.found value.id).assign value.payload =
      .error reason ∧ e = .rejected value.id reason := by
  obtain ⟨hresult, rfl⟩ := Prod.mk.inj (attempt_discard.symm.trans hrun)
  cases hdeclared : (q.store.declare value.id value.payload value.access).result with
  | ok status =>
    have hok : (q.attempt (ExceptT.mk (Host.declare value.id value.payload value.access))).1 =
      .ok status := hdeclared
    rw [hok] at hresult
    cases hresult
  | error e' =>
    have herror : (q.attempt (ExceptT.mk (Host.declare value.id value.payload value.access))).1 =
      .error e' := hdeclared
    rw [herror] at hresult
    obtain rfl := Except.error.inj hresult
    exact ⟨Store.sameBut_of_refused hdeclared, Store.declare_eq_error hdeclared⟩

end Quiet

/-! ## The whole fragment -/

namespace Fragment

/-- A load came to a container that another value is in the way of. Those before it are declared. -/
def LoadStopped (own s : Store) (e : StoreError) (t : Store) : Prop :=
  ∃ done schema rest u, own.schemas = done ++ schema :: rest ∧ s.Declared u done ∧
    u.SameBut t schema.id ∧ s.Clashes schema.id e

/-- A reload came to what does not go with a live value. -/
inductive ReloadStopped (own s : Store) (e : StoreError) (t : Store) : Prop
  /-- The containers before it are emptied. -/
  | container {done : List Schema} {schema : Schema} {rest : List Schema} {u : Store} :
    own.schemas = done ++ schema :: rest → s.Emptied u done → u.SameBut t schema.id →
      s.Clashes schema.id e → ReloadStopped own s e t
  /-- All containers are emptied, and the values before it are declared again. -/
  | value {done : List Value} {value : Value} {rest : List Value} {u v : Store} {live : Payload}
    {reason : SetError} :
    plainValues own = done ++ value :: rest → s.Emptied u own.schemas → u.Restated v done →
      v.SameBut t value.id → s.payload? value.id = some live →
        live.assign value.payload = .error reason → e = .rejected value.id reason →
          ReloadStopped own s e t

end Fragment

namespace Quiet

open Fragment

variable {q p : Quiet} {f : Fragment} {own : Store} {e : StoreError}

theorem load_stopped (h : q.store.WellFormed) (hown : f.alone = .ok own)
    (hrun : q.attempt f.load = (.error e, p)) : LoadStopped own q.store e p.store := by
  have halone := alone_of_eq_ok hown
  have hrun := (attempt_bind_ok (attempt_lift hown)).symm.trans hrun
  cases hcontainers : q.attempt (own.schemas.forM fun schema =>
      ExceptT.mk (Host.declareContainer schema)) with
  | mk result q' =>
    obtain ⟨rfl, -⟩ | ⟨e', rfl, hstops⟩ := declareContainers_cases halone h hcontainers
    · obtain ⟨p', hvalues⟩ := loadValues_isOk (q := q') halone
      cases hvalues.symm.trans ((attempt_bind_ok hcontainers).symm.trans hrun)
    · obtain ⟨he, rfl⟩ := Prod.mk.inj ((attempt_bind_error hcontainers).symm.trans hrun)
      obtain rfl := Except.error.inj he
      obtain ⟨done, schema, rest, p', hsplit, hdeclared, hrefused⟩ := hstops
      have hmem : schema ∈ own.schemas := by simp [hsplit]
      obtain ⟨hclash, hsame⟩ :=
        declareContainer_refused (halone.fault? (halone.mem_schemas.mp hmem)) hrefused
      refine ⟨done, schema, rest, p'.store, hsplit, hdeclared, hsame, hclash.congr ?_⟩
      exact (hdeclared.kept fun other hother => halone.fresh_schema hsplit hother).1

theorem reload_stopped (h : q.store.WellFormed) (hnamed : q.store.KeysNamed)
    (hown : f.alone = .ok own) (hrun : q.attempt f.reload = (.error e, p)) :
    ReloadStopped own q.store e p.store := by
  have halone := alone_of_eq_ok hown
  have hrun := (attempt_bind_ok (attempt_lift hown)).symm.trans hrun
  cases hcontainers : q.attempt (own.schemas.forM reloadContainer) with
  | mk result q' =>
    obtain ⟨rfl, hemptied⟩ | ⟨e', rfl, hstops⟩ := reloadContainers_cases halone h hcontainers
    · have hrun := (attempt_bind_ok hcontainers).symm.trans hrun
      obtain ⟨hok, -⟩ | ⟨e', he, hstops⟩ := declareValues_cases halone hemptied.wellFormed hrun
      · cases hok
      · obtain rfl := Except.error.inj he
        obtain ⟨done, value, rest, p', hsplit, hrestated, hrefused⟩ := hstops
        have hmem : value ∈ plainValues own := by simp [hsplit]
        have hfresh (earlier : Value) (hearlier : earlier ∈ done) : earlier.id ≠ value.id :=
          halone.fresh_plainValue hsplit hearlier
        obtain ⟨hsame, reason, hassign, rfl⟩ := declareValue_refused hrefused
        rw [Store.found_congr (hrestated.kept hfresh)] at hassign
        obtain ⟨live, hlive, hassign⟩ := hemptied.refuses
          (fun schema hschema => (halone.plainValue_ne hmem hschema).symm)
          (halone.legal_plainValue hmem) hassign
        exact .value hsplit hemptied hrestated hsame hlive hassign rfl
    · obtain ⟨he, rfl⟩ := Prod.mk.inj ((attempt_bind_error hcontainers).symm.trans hrun)
      obtain rfl := Except.error.inj he
      obtain ⟨done, schema, rest, p', hsplit, hemptied, hrefused⟩ := hstops
      have hmem : schema ∈ own.schemas := by simp [hsplit]
      have hfresh (other : Schema) (hother : other ∈ done) : other.id ≠ schema.id :=
        halone.fresh_schema hsplit hother
      obtain ⟨hclash, hsame⟩ := reloadContainer_refused hemptied.wellFormed
        (hemptied.keysNamed hnamed) (halone.fault? (halone.mem_schemas.mp hmem)) hrefused
      exact .container hsplit hemptied hsame (hemptied.clashes hfresh hclash)

/-! ## When a fragment is refused -/

/-- A container of the fragment that has come into being was not another value before. -/
theorem kind_of_loaded (h : q.store.WellFormed) (hrun : q.attempt f.load = (.ok (), p)) {c : Id}
    {kind : Kind} (hc : f.DeclaresContainer c) (hkind : q.store.kind? c = some kind) :
    kind = .unset ∨ kind = .container := by
  obtain ⟨own, hown, hprovides⟩ := load_provides h hrun
  obtain ⟨schema, hmem, rfl⟩ := (alone_of_eq_ok hown).declaresContainer_iff.mp hc
  obtain ⟨order, keys, hhosted⟩ := (hprovides.hosts schema hmem).exists_node
  obtain ⟨node, hnode, rfl⟩ := Store.kind?_eq_some.mp hkind
  have hgrown := grown_load (f := f) h
  rw [hrun] at hgrown
  by_cases hset : node.value.payload = .unset
  · exact Or.inl (congrArg Payload.kind hset)
  · have hkept : p.store.payload? schema.id = some node.value.payload :=
      hgrown.payload? (by rw [Store.payload?, Store.get?, hnode]; rfl) hset
    rw [Store.payload?, Store.get?, hhosted] at hkept
    exact Or.inr (congrArg Payload.kind (Option.some.inj hkept)).symm

/-- A fragment that fits is loaded unless a container of it is another value already. -/
theorem load_isOk_iff (h : q.store.WellFormed) (hown : f.alone = .ok own) :
    (q.attempt f.load).1 = .ok () ↔ ∀ c kind, f.DeclaresContainer c →
      q.store.kind? c = some kind → kind = .unset ∨ kind = .container := by
  constructor
  · intro hok c kind
    exact kind_of_loaded h (Prod.ext hok rfl)
  · intro hkinds
    obtain ⟨p, hrun⟩ := load_isOk h hown hkinds
    rw [hrun]

/-- An unload is refused for the sake of the fragment alone, and a load also for a live value where
a container of the fragment is to be. -/
theorem refused_iff (changes : List Change) (f : Fragment) :
    let q := Quiet.after {} changes
    ((q.attempt f.unload).1 ≠ .ok () ↔ ¬f.Fits) ∧
      ((q.attempt f.load).1 ≠ .ok () ↔ ¬f.Fits ∨ ∃ c kind, f.DeclaresContainer c ∧
        q.store.kind? c = some kind ∧ kind ≠ .unset ∧ kind ≠ .container) := by
  intro q
  have h : q.store.WellFormed := wellFormed_run Store.wellFormed_empty changes
  rw [fits_iff]
  cases hown : f.alone with
  | error e =>
    have hunload : q.attempt f.unload = (.error e, q) := attempt_bind_error (attempt_lift hown)
    have hload : q.attempt f.load = (.error e, q) := attempt_bind_error (attempt_lift hown)
    simp [hunload, hload]
  | ok own =>
    obtain ⟨p, hunload, -⟩ := attempt_unload h hown
    rw [ne_eq, ne_eq, load_isOk_iff h hown, hunload]
    simp

/-! ## What it leaves -/

/-- A fragment that does not fit is refused without a trace. One that fits is unloaded in any case,
and a load or a reload of it stops only where a live value is in the way. The access mode of this
value is left open. Distinct ids are taken to have distinct tokens. -/
theorem stopped_at_refusal (changes : List Change) (f : Fragment) :
    let q := Quiet.after {} changes
    match f.alone with
    | .error e => q.attempt f.load = (.error e, q) ∧ q.attempt f.unload = (.error e, q) ∧
        q.attempt f.reload = (.error e, q)
    | .ok own => (∃ p, q.attempt f.unload = (.ok (), p)) ∧
        (∀ e p, q.attempt f.load = (.error e, p) → LoadStopped own q.store e p.store) ∧
        ∀ e p, q.attempt f.reload = (.error e, p) → ReloadStopped own q.store e p.store := by
  intro q
  have h : q.store.WellFormed := wellFormed_run Store.wellFormed_empty changes
  cases hown : f.alone with
  | error e =>
    have hlift := attempt_lift (q := q) hown
    exact ⟨attempt_bind_error hlift, attempt_bind_error hlift, attempt_bind_error hlift⟩
  | ok own =>
    obtain ⟨p, hunload, -⟩ := attempt_unload h hown
    exact ⟨⟨p, hunload⟩, fun e p => load_stopped h hown,
      fun e p => reload_stopped h (keysNamed_after changes) hown⟩

/-- The container before the one that is refused stays. -/
theorem load_refused_halfway :
    let q := Quiet.after {} [.declare ⟨["b"]⟩ (.bool true) .readWrite]
    let f : Fragment := { containers := [⟨⟨["a"]⟩, true, []⟩, ⟨⟨["b"]⟩, true, []⟩] }
    (q.attempt f.load).1.toOption = none ∧ q.store.has ⟨["a"]⟩ = false ∧
      (q.attempt f.load).2.store.has ⟨["a"]⟩ = true := by
  decide +kernel

/-- A load stops at a container, and a reload of another fragment at a number out of range. -/
theorem stopped_at_refusal_instances :
    let changes : List Change := [
      .declare ⟨["b"]⟩ (.bool true) .readWrite, .declare ⟨["n"]⟩ (.unsigned ⟨.u8, 3, 1, 5⟩) .readWrite]
    let q := Quiet.after {} changes
    let f : Fragment := { containers := [⟨⟨["a"]⟩, true, []⟩, ⟨⟨["b"]⟩, true, []⟩] }
    let g : Fragment := { values := [⟨⟨["n"]⟩, .readWrite, .unsigned ⟨.u8, 7, 0, 0⟩⟩] }
    (∃ own e p, f.alone = .ok own ∧ q.attempt f.load = (.error e, p) ∧
      LoadStopped own q.store e p.store) ∧
    ∃ own e p, g.alone = .ok own ∧ q.attempt g.reload = (.error e, p) ∧
      ReloadStopped own q.store e p.store := by
  intro changes q f g
  have hfits (f : Fragment) (h : f.alone.toOption ≠ none) : ∃ own, f.alone = .ok own := by
    cases hown : f.alone with
    | ok own => exact ⟨own, rfl⟩
    | error e => exact absurd (congrArg Except.toOption hown) h
  have hfails (x : ExceptT StoreError (StateM Quiet) Unit) (h : (q.attempt x).1.toOption = none) :
      ∃ e p, q.attempt x = (.error e, p) := by
    cases hx : q.attempt x with
    | mk result p =>
      cases result with
      | ok u => rw [hx] at h; cases h
      | error e => exact ⟨e, p, rfl⟩
  obtain ⟨own, hown⟩ := hfits f (by decide +kernel)
  obtain ⟨e, p, hrun⟩ := hfails f.load (by decide +kernel)
  obtain ⟨own', hown'⟩ := hfits g (by decide +kernel)
  obtain ⟨e', p', hrun'⟩ := hfails g.reload (by decide +kernel)
  have hf := stopped_at_refusal changes f
  rw [hown] at hf
  have hg := stopped_at_refusal changes g
  rw [hown'] at hg
  exact ⟨⟨own, e, p, hown, hrun, hf.2.1 e p hrun⟩, own', e', p', hown', hrun', hg.2.2 e' p' hrun'⟩

end Quiet

end ValueTree
