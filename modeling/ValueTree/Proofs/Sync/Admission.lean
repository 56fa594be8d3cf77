import Mathlib.Data.List.Nodup
import ValueTree.Proofs.Store.Contents
import ValueTree.Proofs.Sync.Filtering

/-!
# Values that come in

Each value of the authority settles at its own id and nowhere else: what stands there afterwards
depends on what stood there, and on whether the filter lets the value in. A value that is let in
makes no other one visible or hidden, so the values of one message may come in any order.
-/

namespace ValueTree

/-! ## Ids on the way up -/

namespace Id

variable {i p : Id}

theorem mem_up : p ∈ i :: i.ancestors ↔ i.startsWith p = true := by
  rw [List.mem_cons, startsWith_iff]
  constructor
  · rintro (rfl | hp)
    · exact List.prefix_rfl
    · obtain ⟨segment, rest, hsegments⟩ := mem_ancestors.mp hp
      exact ⟨_, hsegments.symm⟩
  · rintro ⟨rest, hrest⟩
    cases rest with
    | nil => exact Or.inl (congrArg mk (by rw [← hrest, List.append_nil]))
    | cons segment rest => exact Or.inr (mem_ancestors.mpr ⟨segment, rest, hrest.symm⟩)

end Id

theorem Store.nearest?_eq_none {s : Store} {id : Id} :
    s.nearest? id = none ↔ ∀ p, id.startsWith p = true → s.has p = false := by
  simp only [nearest?, List.find?_eq_none, Id.mem_up, Bool.not_eq_true]

theorem Store.nearest?_ne_none {s : Store} {id : Id} :
    s.nearest? id ≠ none ↔ ∃ p, id.startsWith p = true ∧ s.has p = true := by
  rw [ne_eq, nearest?_eq_none, Classical.not_forall]
  simp only [Classical.not_imp, Bool.not_eq_false]

/-! ## Hiding -/

theorem Filter.hides_congr {f : Filter} {s t : Store} {id : Id}
    (h : f.roots = [] ∨ (s.nearest? id = none ↔ t.nearest? id = none)) :
    f.hides s id = f.hides t id := by
  unfold hides
  rcases h with hroots | hnearest
  · simp [hroots]
  · cases hs : s.nearest? id <;> cases ht : t.nearest? id <;> simp_all

theorem Filter.nearest?_of_shown {f : Filter} {s : Store} {id : Id} (h : f.hides s id = false) :
    f.roots = [] ∨ s.nearest? id ≠ none := by
  by_cases hroots : f.roots = []
  · exact Or.inl hroots
  · right
    intro hnone
    simp [hides, hroots, hnone] at h

/-! ## Settling -/

/-- What stands at the id of a value once it has come in, given what stood there. -/
def Value.settle (value : Value) : Option Node → Option Node
  | none =>
    match Payload.unset.assign value.payload with
    | .ok (_, payload) => some { value := { value with payload } }
    | .error _ => none
  | some node =>
    if node.value.kind.isStructural then some node
    else
      match node.value.assign value.payload with
      | .ok (.success, written) => some { node with value := written }
      | _ => some node

/-- The three things that may become of a store when a value comes in. -/
inductive Store.Settles (s : Store) (value : Value) : Store → Prop
  | same : value.settle (s.node? value.id) = s.node? value.id → Settles s value s
  | new {created : Value} : s.node? value.id = none → created.id = value.id →
    value.settle none = some { value := created } → Settles s value (s.add created)
  | old {node node' : Node} : s.node? value.id = some node →
    value.settle (some node) = some node' → Settles s value (s.put value.id node')

namespace Store

variable {s t : Store} {x : Id} {value other : Value} {f : Filter}

/-- What becomes of a store that takes over a value from the other end. -/
def takeOver (s : Store) (value : Value) : Store :=
  if ((s.kind? value.id).map Kind.isStructural).getD false then s
  else (s.setValue value .remote).store

theorem settles_takeOver (s : Store) (value : Value) : s.Settles value (s.takeOver value) := by
  cases hnode : s.node? value.id with
  | none =>
    have hkind : s.kind? value.id = none := by simp [kind?, get?, hnode]
    simp only [takeOver, hkind, setValue, write, hnode, create, Option.map_none, Option.getD_none,
      Bool.false_eq_true, if_false]
    cases hassign : Payload.unset.assign value.payload with
    | error e => exact .same (by rw [hnode, Value.settle, hassign])
    | ok found => exact .new hnode rfl (by rw [Value.settle, hassign])
  | some node =>
    have hkind : s.kind? value.id = some node.value.kind := by simp [kind?, get?, hnode]
    unfold takeOver
    rw [hkind, Option.map_some, Option.getD_some]
    split
    · exact .same (by rw [hnode, Value.settle, if_pos ‹_›])
    · simp only [setValue, write, hnode, assignAt, reduceCtorEq, decide_false, Bool.false_and,
        Bool.false_eq_true, if_false]
      cases hassign : node.value.assign value.payload with
      | error e => exact .same (by rw [hnode, Value.settle, if_neg ‹_›, hassign])
      | ok found =>
        obtain ⟨status, written⟩ := found
        cases status with
        | sameValue => exact .same (by rw [hnode, Value.settle, if_neg ‹_›, hassign])
        | success => exact .old hnode (by rw [Value.settle, if_neg ‹_›, hassign])

namespace Settles

theorem node? (h : s.Settles value t) :
    t.node? x = if value.id = x then value.settle (s.node? x) else s.node? x := by
  cases h with
  | same hsame =>
    split
    · subst_vars
      exact hsame.symm
    · rfl
  | new hnone hid hsettle =>
    rw [node?_add, hid]
    split
    · subst_vars
      rw [hnone, hsettle]
    · rfl
  | old hnode hsettle =>
    rw [node?_put]
    split
    · subst_vars
      rw [hnode, hsettle]
    · rfl

theorem mem_index (h : s.Settles value t) : x ∈ t.index ↔
    x ∈ s.index ∨ value.id = x ∧ s.node? x = none ∧ value.settle none ≠ none := by
  cases h with
  | same hsame =>
    refine ⟨Or.inl, ?_⟩
    rintro (hx | ⟨rfl, hnone, hsettle⟩)
    · exact hx
    · rw [hnone] at hsame
      exact absurd hsame hsettle
  | new hnone hid hsettle =>
    rw [mem_index_add, hid, or_comm]
    refine or_congr_right ⟨?_, And.left⟩
    rintro rfl
    exact ⟨rfl, hnone, by rw [hsettle]; nofun⟩
  | old hnode hsettle =>
    refine ⟨Or.inl, ?_⟩
    rintro (hx | ⟨rfl, hnone, -⟩)
    · exact hx
    · rw [hnode] at hnone
      cases hnone

theorem schema? (h : s.Settles value t) : t.schema? x = s.schema? x := by
  cases h <;> rfl

/-- Nothing goes when a value comes in. -/
theorem has_of_has (h : s.Settles value t) (hx : s.has x = true) : t.has x = true := by
  cases h with
  | same hsame => exact hx
  | new hnone hid hsettle =>
    rw [has, node?_add]
    split
    · rfl
    · exact hx
  | old hnode hsettle =>
    rw [has, node?_put]
    split
    · rfl
    · exact hx

theorem has_ne (h : s.Settles value t) (hx : value.id ≠ x) : t.has x = s.has x := by
  rw [has, has, h.node?, if_neg hx]

end Settles

/-! ## Letting values in -/

/-- What a receiver with a filter makes of a value. -/
def letIn (f : Filter) (s : Store) (value : Value) : Store :=
  if f.hides s value.id then s else s.takeOver value

/-- A value that is let in has something above it already, so it makes no other id visible. -/
theorem hides_letIn (f : Filter) (s : Store) (value : Value) (x : Id) :
    f.hides (s.letIn f value) x = f.hides s x := by
  unfold letIn
  split
  · rfl
  · rename_i hshown
    apply Filter.hides_congr
    refine (Filter.nearest?_of_shown (Bool.eq_false_iff.mpr hshown)).imp_right fun hup => ?_
    obtain ⟨p, hp, hhas⟩ := nearest?_ne_none.mp hup
    have hsettles := s.settles_takeOver value
    simp only [nearest?_eq_none]
    constructor
    · intro hnone q hq
      refine Bool.eq_false_iff.mpr fun hthere => ?_
      exact absurd (hnone q hq) (by simp [hsettles.has_of_has hthere])
    · intro hnone q hq
      by_cases hid : value.id = q
      · subst hid
        exact absurd (hnone p (Id.startsWith_trans hq hp)) (by simp [hhas])
      · rw [hsettles.has_ne hid, hnone q hq]

theorem node?_letIn : (s.letIn f value).node? x =
    if value.id = x ∧ f.hides s x = false then value.settle (s.node? x) else s.node? x := by
  unfold letIn
  split
  · rename_i hhidden
    rw [if_neg]
    rintro ⟨rfl, hshown⟩
    rw [hhidden] at hshown
    cases hshown
  · rename_i hshown
    rw [(s.settles_takeOver value).node?]
    by_cases hx : value.id = x
    · subst hx
      rw [if_pos rfl, if_pos ⟨rfl, Bool.eq_false_iff.mpr hshown⟩]
    · rw [if_neg hx, if_neg (hx ·.1)]

theorem mem_index_letIn : x ∈ (s.letIn f value).index ↔ x ∈ s.index ∨
    value.id = x ∧ f.hides s x = false ∧ s.node? x = none ∧ value.settle none ≠ none := by
  unfold letIn
  split
  · rename_i hhidden
    refine ⟨Or.inl, ?_⟩
    rintro (hx | ⟨rfl, hshown, -⟩)
    · exact hx
    · rw [hhidden] at hshown
      cases hshown
  · rename_i hshown
    rw [(s.settles_takeOver value).mem_index]
    refine or_congr_right (and_congr_right ?_)
    rintro rfl
    rw [Bool.eq_false_iff.mpr hshown]
    simp

theorem schema?_letIn : (s.letIn f value).schema? x = s.schema? x := by
  unfold letIn
  split
  · rfl
  · exact (s.settles_takeOver value).schema?

/-- Values for different ids do not see each other. -/
theorem letIn_letIn (hne : value.id ≠ other.id) :
    (s.letIn f value).letIn f other = (s.letIn f other).letIn f value := by
  apply ext_parts
  · intro x
    simp only [node?_letIn, hides_letIn]
    by_cases hx : value.id = x
    · have hother : other.id ≠ x := fun h => hne (hx.trans h.symm)
      simp [hother]
    · simp [hx]
  · intro x
    simp only [mem_index_letIn, hides_letIn, node?_letIn]
    by_cases hx : value.id = x
    · have hother : other.id ≠ x := fun h => hne (hx.trans h.symm)
      simp [hother]
    · simp [hx]
  · intro x
    simp only [schema?_letIn]

def letInAll (f : Filter) (s : Store) (values : List Value) : Store := values.foldl (letIn f) s

theorem letInAll_perm {values shuffled : List Value} (hdistinct : (values.map (·.id)).Nodup)
    (h : values.Perm shuffled) : s.letInAll f shuffled = s.letInAll f values := by
  refine (h.foldl_eq' ?_ s).symm
  intro value hvalue other hother s
  by_cases hid : value.id = other.id
  · rw [List.inj_on_of_nodup_map hdistinct hvalue hother hid]
  · exact letIn_letIn hid

end Store

/-! ## Receiving -/

namespace Mirror

variable {r : Mirror}

theorem filter_applyValue (r : Mirror) (value : Value) :
    ((Receiver.applyValue value : StateM Mirror Bool) r).2.filter = r.filter :=
  keepsFilter_applyValue value r

theorem store_applyValue (r : Mirror) (value : Value) :
    ((Receiver.applyValue value : StateM Mirror Bool) r).2.quiet.store =
      r.quiet.store.letIn r.filter value := by
  rw [applyValue_eq, Store.letIn, Store.takeOver]
  split
  · rfl
  · split <;> rfl

theorem store_applyResult (r : Mirror) (values : List Value) :
    ((Receiver.applyResult .success values : StateM Mirror Unit) r).2.quiet.store =
      r.quiet.store.letInAll r.filter values := by
  change ((values.forM fun value => do
    let _ ← (Receiver.applyValue value : StateM Mirror Bool)) r).2.quiet.store = _
  induction values generalizing r with
  | nil => rfl
  | cons value rest ih =>
    refine (ih ((Receiver.applyValue value : StateM Mirror Bool) r).2).trans ?_
    rw [filter_applyValue, store_applyValue]
    rfl

theorem store_valueChanged (r : Mirror) (values : List Value) :
    (r.receive [.valueChanged (values.map .set)]).quiet.store =
      r.quiet.store.letInAll r.filter values := by
  have hforM (items : List Value) (r : Mirror) :
      ((items.map Update.set).forM fun update => do
        let _ ← (Receiver.applyUpdate update : StateM Mirror Bool)) r =
      (Receiver.applyResult .success items : StateM Mirror Unit) r := by
    induction items generalizing r with
    | nil => rfl
    | cons value rest ih => exact ih _
  have hreceive : (r.receive [.valueChanged (values.map .set)]) =
      ((Receiver.applyResult .success values : StateM Mirror Unit) r).2 :=
    congrArg Prod.snd (hforM values r)
  rw [hreceive, store_applyResult]

/-- The values of one message may come in any order, if no two are for one id: those further up
need not come first. Distinct ids are taken to have distinct tokens. -/
theorem reordered (r : Mirror) {values shuffled : List Value}
    (hdistinct : (values.map (·.id)).Nodup) (h : values.Perm shuffled) (sequence : UInt32) :
    (r.receive [.valueChanged (shuffled.map .set)]).quiet.store =
        (r.receive [.valueChanged (values.map .set)]).quiet.store ∧
      (r.receive [.result sequence .success shuffled]).quiet.store =
        (r.receive [.result sequence .success values]).quiet.store := by
  constructor
  · rw [store_valueChanged, store_valueChanged, Store.letInAll_perm hdistinct h]
  · exact (store_applyResult r shuffled).trans
      ((Store.letInAll_perm hdistinct h).trans (store_applyResult r values).symm)

/-- What lies below comes before what lies above, and what has nothing above it stays out in either
order. -/
theorem reordered_backwards :
    let r : Mirror := {
      filter := { app := "A", roots := [⟨["log"]⟩] }
      quiet := Quiet.after {} [.set ⟨["a"]⟩ .struct .local] }
    let values : List Value := [⟨⟨["a", "b"]⟩, .readOnly, .container .ordered⟩,
      ⟨⟨["a", "b", "k"]⟩, .readWrite, .struct⟩, ⟨⟨["a", "b", "k", "n"]⟩, .readWrite, .text "x"⟩,
      ⟨⟨["log"]⟩, .readWrite, .struct⟩, ⟨⟨["log", "A"]⟩, .readWrite, .bool true⟩]
    (values.map (·.id)).Nodup ∧ values.Perm values.reverse ∧
      (r.receive [.valueChanged (values.reverse.map .set)]).quiet.store =
        (r.receive [.valueChanged (values.map .set)]).quiet.store ∧
      (r.receive [.result 7 .success values.reverse]).quiet.store.ids =
        [⟨["a"]⟩, ⟨["a", "b"]⟩, ⟨["a", "b", "k"]⟩, ⟨["a", "b", "k", "n"]⟩] := by
  intro r values
  have hdistinct : (values.map (·.id)).Nodup := by decide
  have hperm : values.Perm values.reverse := (List.reverse_perm values).symm
  obtain ⟨hchanged, hresult⟩ := reordered r hdistinct hperm 7
  refine ⟨hdistinct, hperm, hchanged, ?_⟩
  rw [hresult]
  decide +kernel

end Mirror

end ValueTree
