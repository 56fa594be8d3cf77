import Mathlib.Data.List.Dedup
import Mathlib.Data.List.Induction
import ValueTree.Loader
import ValueTree.Proofs.Fragment.Attempt
import ValueTree.Proofs.Store.Declaring

/-!
# The order of a container

The order of the keys stands in two places: in the schema of a container and in its payload. The
keys are given by the payload. It has the order with which the container came into being, and keeps
it for as long as the container is there, whatever is declared later on.
-/

open Std

namespace ValueTree

def Payload.order? : Payload → Option KeyOrder
  | container order => some order
  | _ => none

namespace KeyOrder

/-- The keys stand as they were added, where the last time counts, or they are sorted. -/
def Arranges (told : List String) : KeyOrder → List String → Prop
  | ordered, keys => keys.Sublist told.dedup
  | unordered, keys => keys.Pairwise fun a b => compare a b = .lt

variable {told keys : List String} {key : String}

theorem dedup_concat : (told ++ [key]).dedup = told.dedup.filter (· ≠ key) ++ [key] := by
  induction told with
  | nil => simp
  | cons head rest ih =>
    rw [List.cons_append, List.dedup_cons, List.dedup_cons, ih]
    rcases eq_or_ne head key with rfl | hne
    · by_cases hrest : head ∈ rest <;> simp [hrest]
    · by_cases hrest : head ∈ rest <;> simp [hrest, hne]

/-- A new key comes last, whenever it was told of before. -/
theorem arranges_concat (h : ordered.Arranges told keys) (hnew : key ∉ keys) :
    ordered.Arranges (told ++ [key]) (keys ++ [key]) := by
  have hkeys : keys.filter (· ≠ key) = keys := by
    refine List.filter_eq_self.mpr fun k hk => ?_
    simpa using fun he : k = key => hnew (he ▸ hk)
  rw [Arranges, dedup_concat, ← hkeys]
  exact (List.Sublist.filter _ h).append (List.Sublist.refl _)

theorem arranges_mergeSort (h : keys.Nodup) :
    unordered.Arranges told (keys.mergeSort fun a b => (compare a b).isLE) := by
  have hsorted : (keys.mergeSort fun a b => (compare a b).isLE).Pairwise
      fun a b => (compare a b).isLE := by
    refine List.pairwise_mergeSort (fun a b c => TransCmp.isLE_trans) (fun a b => ?_) keys
    have hswap : compare b a = (compare a b).swap := OrientedCmp.eq_swap
    rw [hswap]
    cases compare a b <;> rfl
  have hnodup := (List.mergeSort_perm keys fun a b => (compare a b).isLE).nodup_iff.mpr h
  refine (hsorted.and hnodup).imp fun {a b} hle => ?_
  exact (Ordering.isLE_iff_eq_lt_or_eq_eq.mp hle.1).resolve_right
    fun heq => hle.2 (LawfulEqOrd.eq_of_compare heq)

end KeyOrder

/-- The payloads that a change has for an id. -/
inductive Change.Offers (s : Store) (x : Id) : Change → Payload → Prop
  | set (payload : Payload) (origin : Origin) : Offers s x (.set x payload origin) payload
  | setValue (value : Value) (origin : Origin) :
    value.id = x → Offers s x (.setValue value origin) value.payload
  | declare (payload : Payload) (access : Access) :
    Offers s x (.declare x payload access) payload
  | declareContainer (schema : Schema) :
    schema.id = x → Offers s x (.declareContainer schema) (.container schema.order)
  /-- The container itself, where the other end of a connection adds a key to it. -/
  | linked (key : String) : Offers s x (.addKey x key .remote) (.container .ordered)
  /-- What the instance of a new key starts with. -/
  | filled (container : Id) (key : String) (origin : Origin) (value : Value) :
    value ∈ s.instanceValues container key (container.child key) → value.id = x →
      Offers s x (.addKey container key origin) value.payload

/-! ## What becomes of a payload -/

/-- What a change may leave of the payload under an id, if these are on offer. -/
inductive Becomes (offers : Payload → Prop) (before : Option Payload) : Option Payload → Prop
  | stays : Becomes offers before before
  | goes : Becomes offers before none
  | takes {payload result : Payload} {status : SetStatus} : offers payload →
    (before.getD .unset).assign payload = .ok (status, result) →
      Becomes offers before (some result)
  | comes {payload : Payload} : offers payload → before = none →
    Becomes offers before (some payload)

namespace Becomes

variable {offers : Payload → Prop} {before after : Option Payload} {order : KeyOrder}

/-- A container does not take on another order. -/
theorem kept (h : Becomes offers (some (.container order)) after) :
    after = some (.container order) ∨ after = none := by
  cases h with
  | stays => exact Or.inl rfl
  | goes => exact Or.inr rfl
  | takes _ hassign => exact Or.inl (congrArg some (Payload.eq_of_isStructural rfl hassign))
  | comes _ hnone => cases hnone

/-- What becomes a container was absent or unset before. -/
theorem born (h : Becomes offers before (some (.container order)))
    (hnew : ∀ order, before ≠ some (.container order)) :
    before.getD .unset = .unset ∧ offers (.container order) := by
  generalize hafter : some (Payload.container order) = after at h
  cases h with
  | stays => exact absurd hafter.symm (hnew order)
  | goes => cases hafter
  | @takes payload result status hoffer hassign =>
    obtain rfl := Option.some.inj hafter
    obtain ⟨hkind, hold⟩ := Payload.kind_of_assign hassign
    cases payload with
    | container asked =>
      rcases Payload.container_of_assign hassign with ⟨hunset, hresult⟩ | hsame
      · exact ⟨hunset, hresult ▸ hoffer⟩
      · cases before with
        | none => cases hsame
        | some p => exact absurd (congrArg some hsame.symm) (hnew order)
    | _ => cases hkind
  | comes hoffer hnone =>
    obtain rfl := Option.some.inj hafter
    exact ⟨hnone ▸ rfl, hoffer⟩

end Becomes

namespace Store

variable {s t : Store} {id x : Id} {node : Node} {payload : Payload} {access : Access}
  {origin : Origin} {key : String} {events : List Event} {offers : Payload → Prop}

/-- The order of a container. -/
def order? (s : Store) (x : Id) : Option KeyOrder := (s.payload? x).bind Payload.order?

theorem order?_eq_some {order : KeyOrder} :
    s.order? x = some order ↔ s.payload? x = some (.container order) := by
  unfold order?
  cases s.payload? x with
  | none => simp
  | some p => cases p <;> simp [Payload.order?]

theorem order?_eq_none :
    s.order? x = none ↔ ∀ order, s.payload? x ≠ some (.container order) := by
  simp [Option.eq_none_iff_forall_ne_some, order?_eq_some]

theorem payload?_add (value : Value) :
    (s.add value).payload? x = if value.id = x then some value.payload else s.payload? x := by
  rw [payload?_eq, payload?_eq, content?_add]
  split <;> rfl

theorem payload?_put (node : Node) :
    (s.put id node).payload? x = if id = x then some node.value.payload else s.payload? x := by
  rw [payload?_eq, payload?_eq, content?_put]
  split <;> rfl

theorem payload?_of_node? (h : s.node? id = some node) :
    s.payload? id = some node.value.payload := by
  simp [payload?, get?, h]

theorem payload?_of_none (h : s.node? id = none) : s.payload? id = none := by
  simp [payload?, get?, h]

/-- A node that keeps its payload. -/
theorem payload?_put_same {node' : Node} (h : s.node? id = some node)
    (hsame : node'.value.payload = node.value.payload) :
    (s.put id node').payload? x = s.payload? x := by
  rw [payload?_put]
  split
  · subst_vars
    rw [payload?_of_node? h, hsame]
  · rfl

theorem payload?_fill (values : List Value) : (s.fill origin values).1.payload? x =
    (s.payload? x).or ((values.find? (·.id = x)).map (·.payload)) := by
  simp only [payload?, get?, node?_fill, Option.map_or, Option.map_map, Function.comp_def]

theorem becomes_filled {values : List Value} {before : Option Payload}
    (h : ∀ value ∈ values, value.id = x → offers value.payload) :
    Becomes offers before (before.or ((values.find? (·.id = x)).map (·.payload))) := by
  cases before with
  | some p => exact .stays
  | none =>
    cases hfind : values.find? (·.id = x) with
    | none => exact .stays
    | some value =>
      have hid : value.id = x := by simpa using List.find?_some hfind
      exact .comes (h value (List.mem_of_find?_eq_some hfind) hid) rfl

theorem becomes_create (hnone : s.node? id = none) (h : id = x → offers payload) :
    Becomes offers (s.payload? x) ((s.create id payload access origin).store.payload? x) := by
  unfold create
  split
  · exact .stays
  · rename_i result hassign
    dsimp only
    rw [payload?_add]
    split
    · subst_vars
      refine .takes (h rfl) (Eq.trans ?_ hassign)
      rw [payload?_of_none hnone]
      rfl
    · exact .stays

theorem becomes_assignAt (hnode : s.node? id = some node) (h : id = x → offers payload) :
    Becomes offers (s.payload? x) ((s.assignAt id node payload origin).store.payload? x) := by
  unfold assignAt
  split
  · exact .stays
  · exact .stays
  · rename_i value hassign
    obtain ⟨result, htaken, rfl⟩ := Value.assign_eq_ok.mp hassign
    dsimp only
    rw [payload?_put]
    split
    · subst_vars
      refine .takes (h rfl) (Eq.trans ?_ htaken)
      rw [payload?_of_node? hnode]
      rfl
    · exact .stays

theorem becomes_write (h : id = x → offers payload) :
    Becomes offers (s.payload? x) ((s.write id payload access origin).store.payload? x) := by
  unfold write
  split
  · exact becomes_create ‹_› h
  · split
    · exact .stays
    · exact becomes_assignAt ‹_› h

theorem becomes_declare (h : id = x → offers payload) :
    Becomes offers (s.payload? x) ((s.declare id payload access).store.payload? x) := by
  unfold declare
  split
  · exact becomes_create ‹_› h
  · rename_i node hnode
    let own : Node := { node with value := { node.value with access } }
    have hown : (s.put id own).node? id = some own := by rw [node?_put, if_pos rfl]
    have hsame : (s.put id own).payload? x = s.payload? x := payload?_put_same hnode rfl
    rw [← hsame]
    exact becomes_assignAt hown h

/-- Events that tell only of what is gone leave nothing else behind. -/
theorem Indexed.becomes_gone (h : s.Indexed) (ht : s.Turn t events)
    (hevents : ∀ event ∈ events, event.verdict? x = none ∨ event.verdict? x = some none) :
    Becomes offers (s.payload? x) (t.payload? x) := by
  rw [h.payload_turn ht]
  rcases Event.lastWord_gone hevents with hsame | hnone
  · rw [hsame]
    exact .stays
  · rw [hnone]
    exact .goes

theorem Indexed.becomes_remove (h : s.Indexed) :
    Becomes offers (s.payload? x) ((s.remove id origin).store.payload? x) := by
  refine h.becomes_gone (.remove id origin) fun event hmem => ?_
  obtain ⟨r, rfl⟩ := mem_events_remove hmem
  simp only [Event.verdict?]
  split <;> simp

theorem Indexed.becomes_removeKey (h : s.Indexed) :
    Becomes offers (s.payload? x) ((s.removeKey id key origin).store.payload? x) := by
  refine h.becomes_gone (.removeKey id key origin) fun event hmem => ?_
  rw [mem_events_removeKey hmem]
  simp only [Event.verdict?]
  split <;> simp

/-- The payloads after a key was added, if it was new, are those from before and those that its
instance starts with. -/
theorem payload?_addKeyAt (hnode : s.node? id = some node) (key : String) (root : Id)
    (origin : Origin) :
    (s.addKeyAt id node key root origin).store.payload? x = s.payload? x ∨
      (s.addKeyAt id node key root origin).store.payload? x =
        (s.payload? x).or
          (((s.instanceValues id key root).find? (·.id = x)).map (·.payload)) := by
  unfold addKeyAt
  split
  · exact Or.inl rfl
  · split
    · exact Or.inl rfl
    · let linked : Node := { node with keys := node.keys ++ [key] }
      have hlinked : (s.put id linked).payload? x = s.payload? x := payload?_put_same hnode rfl
      exact Or.inr (hlinked ▸ payload?_fill _)

theorem becomes_addKey
    (hlinked : id = x → origin = .remote → offers (.container .ordered))
    (hfilled : ∀ value ∈ s.instanceValues id key (id.child key), value.id = x →
      offers value.payload) :
    Becomes offers (s.payload? x) ((s.addKey id key origin).store.payload? x) := by
  have hcases {after : Option Payload} (h : after = s.payload? x ∨
      after = (s.payload? x).or
        (((s.instanceValues id key (id.child key)).find? (·.id = x)).map (·.payload))) :
      Becomes offers (s.payload? x) after := by
    rcases h with rfl | rfl
    · exact .stays
    · exact becomes_filled hfilled
  unfold addKey
  split
  · exact .stays
  · rename_i root hjoin
    obtain ⟨-, rfl⟩ := Id.join_eq_ok_iff.mp hjoin
    split
    · exact hcases (payload?_addKeyAt ‹_› ..)
    · exact .stays
    · rename_i hnone
      let value : Value := { id, payload := .container .ordered }
      have hadd : (s.add value).node? id = some { value } := by rw [node?_add, if_pos rfl]
      have hafter := payload?_addKeyAt (x := x) hadd key (id.child key) .remote
      rw [payload?_add] at hafter
      split at hafter
      · have hx : id = x := ‹_›
        let t := ((s.add value).addKeyAt id { value } key (id.child key) .remote).store
        have hcomes : t.payload? x = some (.container .ordered) := by simpa [value] using hafter
        change Becomes offers (s.payload? x) (t.payload? x)
        rw [hcomes]
        exact .comes (hlinked hx rfl) (hx ▸ payload?_of_none hnone)
      · exact hcases hafter

/-! ## What a declaration leaves -/

/-- A container that is declared has the order that it had, and if there was none the one that is
declared. -/
theorem WellFormed.container_declared {order : KeyOrder} {status : SetStatus} (h : s.WellFormed)
    (hok : (s.declare id (.container order) access).result = .ok status) :
    (s.declare id (.container order) access).store.payload? id =
      some (.container ((s.order? id).getD order)) := by
  obtain ⟨status, result, hassign, hnode⟩ := h.node?_declared hok
  have hresult := (hnode id).trans (if_pos rfl)
  rw [payload?_of_node? hresult]
  congr 1
  rcases Payload.container_of_assign hassign with ⟨hunset, rfl⟩ | rfl
  · have hnone : s.order? id = none := by
      rw [order?_eq_none]
      intro other hother
      simp [found, hother] at hunset
    rw [hnone]
    rfl
  · -- The payload that is found is a container, since it is what the declaration leaves.
    have hkind : (s.found id).kind = .container := (Payload.kind_of_assign hassign).1
    cases hpayload : s.payload? id with
    | none => simp [found, hpayload, Payload.kind] at hkind
    | some p =>
      cases p with
      | container kept => simp [found, order?, hpayload, Payload.order?]
      | _ => simp [found, hpayload, Payload.kind] at hkind

end Store

namespace Quiet

variable {q : Quiet} {change : Change} {schema : Schema} {order : KeyOrder} {id x : Id}

/-! ## Single changes -/

theorem becomes_step (h : q.store.Indexed) (change : Change) (x : Id) :
    Becomes (change.Offers q.store x) (q.store.payload? x)
      ((q.step change).2.store.payload? x) := by
  cases change with
  | set id payload origin => exact Store.becomes_write fun hx => hx ▸ .set ..
  | setValue value origin => exact Store.becomes_write fun hx => .setValue value origin hx
  | declare id payload access => exact Store.becomes_declare fun hx => hx ▸ .declare ..
  | remove id origin => exact h.becomes_remove
  | removeWithToken id token origin =>
    change Becomes _ _ ((q.store.removeWithToken id token origin).store.payload? x)
    unfold Store.removeWithToken
    split
    · exact h.becomes_remove
    · exact .stays
  | declareContainer schema =>
    rw [step_declareContainer]
    split
    · exact .stays
    · dsimp only
      split <;> exact Store.becomes_declare fun hx => .declareContainer schema hx
  | dropSchema id => exact .stays
  | addKey container key origin =>
    refine Store.becomes_addKey ?_ fun value hmem hx => .filled container key origin value hmem hx
    rintro rfl rfl
    exact .linked key
  | removeKey container key origin => exact h.becomes_removeKey

/-- A container keeps its order until it goes. -/
theorem container_kept (h : q.store.Indexed) (change : Change)
    (horder : q.store.payload? x = some (.container order)) :
    (q.step change).2.store.payload? x = some (.container order) ∨
      (q.step change).2.store.has x = false := by
  have hbecomes := becomes_step h change x
  rw [horder] at hbecomes
  refine hbecomes.kept.imp_right fun hgone => Store.has_eq_false.mpr ?_
  simpa [Store.payload?, Store.get?] using hgone

/-- A container comes into being where there is no value or an unset one, and its order is on
offer. -/
theorem container_born (h : q.store.Indexed) (hnone : q.store.order? x = none)
    (horder : (q.step change).2.store.payload? x = some (.container order)) :
    q.store.found x = .unset ∧ change.Offers q.store x (.container order) := by
  have hbecomes := becomes_step h change x
  rw [horder] at hbecomes
  exact hbecomes.born (Store.order?_eq_none.mp hnone)

/-- A schema comes in with its own declaration only. -/
theorem schema?_step (h : (q.step change).2.store.schema? x = some schema) :
    q.store.schema? x = some schema ∨
      change = .declareContainer schema ∧ schema.id = x ∧ (q.step change).1 = .ok .declared := by
  cases change with
  | set id payload origin => exact Or.inl (Store.schema?_write.symm.trans h)
  | setValue value origin => exact Or.inl (Store.schema?_write.symm.trans h)
  | declare id payload access => exact Or.inl (Store.schema?_declare.symm.trans h)
  | remove id origin => exact Or.inl (Store.schema?_of_remove h)
  | removeWithToken id token origin => exact Or.inl (Store.schema?_of_removeWithToken h)
  | declareContainer declared =>
    rw [step_declareContainer] at h ⊢
    cases hfault : declared.fault? with
    | some fault =>
      simp only [hfault] at h
      exact Or.inl h
    | none =>
      simp only [hfault] at h ⊢
      cases hresult :
          (q.store.declare declared.id (.container declared.order) .readWrite).result with
      | error e =>
        simp only [hresult] at h
        exact Or.inl (Store.schema?_declare.symm.trans h)
      | ok status =>
        simp only [hresult, Store.schema?_putSchema, Store.schema?_declare] at h ⊢
        split at h
        · obtain rfl := Option.some.inj h
          exact Or.inr ⟨rfl, ‹_›, trivial⟩
        · exact Or.inl h
  | dropSchema id =>
    have hdrop : (q.store.dropSchema id).schema? x = some schema := h
    rw [Store.schema?_dropSchema] at hdrop
    split at hdrop
    · cases hdrop
    · exact Or.inl hdrop
  | addKey container key origin => exact Or.inl (Store.schema?_addKey.symm.trans h)
  | removeKey container key origin => exact Or.inl (Store.schema?_of_removeKey h)

theorem container_declared (h : q.store.WellFormed)
    (hok : (q.step (.declareContainer schema)).1 = .ok .declared) :
    (q.step (.declareContainer schema)).2.store.payload? schema.id =
      some (.container ((q.store.order? schema.id).getD schema.order)) := by
  rw [step_declareContainer] at hok ⊢
  split at hok
  · cases hok
  · dsimp only at hok ⊢
    split at hok
    · cases hok
    · rename_i status hresult
      exact h.container_declared hresult

/-! ## Runs -/

/-- The keys that a container was said to get, one after the other. -/
def keysTold (q : Quiet) (x : Id) : List String := q.events.filterMap (Event.keyAdded? x)

/-- The keys of a container stand in the order in which they were told of. -/
structure InTurn (q : Quiet) : Prop where
  indexed : q.store.Indexed
  keys (x : Id) : KeyOrder.ordered.Arranges (q.keysTold x) (q.store.keysAt x)

theorem InTurn.turn (h : q.InTurn) {t : Store} {events : List Event} (ht : q.store.Turn t events) :
    InTurn ⟨t, q.events ++ events⟩ where
  indexed := h.indexed.turn ht
  keys x := by
    refine (h.indexed.keysAt_turn ht x).trans ?_
    rw [keysTold, List.filterMap_append]
    rcases ht.keyAdded? x with hnone | ⟨key, hnew, hone⟩
    · rw [hnone, List.append_nil, List.append_nil]
      exact h.keys x
    · rw [hone]
      exact KeyOrder.arranges_concat (h.keys x) hnew

theorem InTurn.moved {r : Quiet} (h : q.InTurn) (hmoved : q.Moved r) : r.InTurn := by
  cases hmoved with
  | still => exact h
  | turn ht => exact h.turn ht
  | declared schema ht =>
    have hturn := h.turn ht
    exact ⟨hturn.indexed.turn (.putSchema schema), hturn.keys⟩

theorem inTurn_after (changes : List Change) : (Quiet.after {} changes).InTurn :=
  after_keeps (P := InTurn) (fun change _ _ h => h.moved (moved_step change))
    ⟨.empty, fun x => by simp [Store.keysAt, KeyOrder.Arranges]⟩

/-- A container answers with its keys as its order asks for. -/
theorem keys_arranged (changes : List Change)
    (horder : (Quiet.after {} changes).store.payload? x = some (.container order)) :
    ∃ keys, (Quiet.after {} changes).store.keys x = .ok keys ∧
      keys.Perm ((Quiet.after {} changes).store.keysAt x) ∧
        order.Arranges ((Quiet.after {} changes).keysTold x) keys := by
  have hturn := (inTurn_after changes).keys x
  have hwf := wellFormed_run (q := {}) Store.wellFormed_empty changes
  generalize Quiet.after {} changes = q at *
  cases hnode : q.store.node? x with
  | none => simp [Store.payload?_of_none hnode] at horder
  | some node =>
    rw [Store.payload?_of_node? hnode, Option.some.injEq] at horder
    rw [Store.keysAt_of_node? hnode] at hturn ⊢
    unfold Store.keys
    simp only [hnode, horder]
    cases order with
    | ordered => exact ⟨_, rfl, .refl _, hturn⟩
    | unordered =>
      exact ⟨_, rfl, List.mergeSort_perm _ _,
        KeyOrder.arranges_mergeSort (hwf.keys_nodup hnode)⟩

/-! ## Since when -/

/-- One of the changes made it so, and it has been so ever since. -/
def Since (made : Quiet → Change → Prop) (P : Quiet → Prop) (changes : List Change) : Prop :=
  ∃ before change later, changes = before ++ change :: later ∧ made (Quiet.after {} before) change ∧
    ∀ more, more <+: later → P (Quiet.after {} (before ++ change :: more))

section

variable {made : Quiet → Change → Prop} {P : Quiet → Prop} {changes : List Change}

theorem Since.holds (h : Since made P changes) : P (Quiet.after {} changes) := by
  obtain ⟨before, change, later, rfl, -, hsince⟩ := h
  exact hsince later (List.prefix_refl later)

theorem Since.now (hmade : made (Quiet.after {} changes) change)
    (hnow : P (Quiet.after {} (changes ++ [change]))) : Since made P (changes ++ [change]) := by
  refine ⟨changes, change, [], rfl, hmade, fun more hmore => ?_⟩
  rw [List.prefix_nil.mp hmore]
  exact hnow

theorem Since.still (h : Since made P changes)
    (hnow : P (Quiet.after {} (changes ++ [change]))) : Since made P (changes ++ [change]) := by
  obtain ⟨before, first, later, rfl, hmade, hsince⟩ := h
  refine ⟨before, first, later ++ [change], by simp, hmade, fun more hmore => ?_⟩
  rcases List.prefix_concat_iff.mp hmore with rfl | hmore
  · simpa using hnow
  · exact hsince more hmore

end

theorem after_concat (changes : List Change) (change : Change) :
    Quiet.after {} (changes ++ [change]) = ((Quiet.after {} changes).step change).2 :=
  after_append changes [change]

/-- A container has the order that was on offer where it came into being. -/
theorem container_since {changes : List Change}
    (h : (Quiet.after {} changes).store.payload? x = some (.container order)) :
    Since (fun q change => q.store.found x = .unset ∧ change.Offers q.store x (.container order))
      (fun q => q.store.payload? x = some (.container order)) changes := by
  induction changes using List.reverseRecOn with
  | nil => simp [Quiet.after, Store.payload?, Store.get?] at h
  | append_singleton changes change ih =>
    have hstep := h
    rw [after_concat] at hstep
    have hindexed := (wellFormed_run (q := {}) Store.wellFormed_empty changes).indexed
    cases hbefore : (Quiet.after {} changes).store.order? x with
    | none => exact .now (container_born hindexed hbefore hstep) h
    | some found =>
      have hfound := Store.order?_eq_some.mp hbefore
      rcases container_kept hindexed change hfound with hkept | hgone
      · rw [hstep] at hkept
        obtain rfl : order = found := by simpa using hkept
        exact (ih hfound).still h
      · rw [Store.has_eq_false] at hgone
        rw [Store.payload?_of_none hgone] at hstep
        cases hstep

/-- The container of a schema has had one order since the schema was declared. -/
theorem schema_since {changes : List Change}
    (h : (Quiet.after {} changes).store.schema? id = some schema) :
    ∃ order, Since
      (fun q change => change = .declareContainer schema ∧ (q.step change).1 = .ok .declared ∧
        schema.id = id ∧ order = (q.store.order? id).getD schema.order)
      (fun q => q.store.schema? id = some schema ∧ q.store.payload? id = some (.container order))
      changes := by
  induction changes using List.reverseRecOn with
  | nil => simp [Quiet.after] at h
  | append_singleton changes change ih =>
    have hwf := wellFormed_run (q := {}) Store.wellFormed_empty changes
    have hstep := h
    rw [after_concat] at hstep
    rcases schema?_step hstep with hbefore | ⟨rfl, rfl, hok⟩
    · obtain ⟨order, hsince⟩ := ih hbefore
      refine ⟨order, hsince.still ⟨h, ?_⟩⟩
      rw [after_concat]
      refine (container_kept hwf.indexed change hsince.holds.2).resolve_right fun hgone => ?_
      -- A schema does not stay behind without its container.
      obtain ⟨node, hnode, -⟩ :=
        Store.kind?_eq_some.mp ((wellFormed_step hwf change).schema_place hstep).2
      simp [Store.has_eq_false.mp hgone] at hnode
    · refine ⟨_, .now ⟨rfl, hok, rfl, rfl⟩ ⟨h, ?_⟩⟩
      rw [after_concat]
      exact container_declared hwf hok

/-! ## Everything that is done to a store -/

/-- A single change, or what a loader does with a fragment. -/
inductive Errand
  | change (change : Change)
  | fragment (action : LoaderAction) (f : Fragment)

def runErrand (q : Quiet) : Errand → Quiet
  | .change change => (q.step change).2
  | .fragment action f => (q.attempt (Loader.applyAction action f)).2

def runErrands (q : Quiet) (errands : List Errand) : Quiet := errands.foldl runErrand q

/-- The changes that errands come to, one after the other: a change is its own, and what a loader
does with a fragment leaves what some changes leave. -/
inductive ComesTo : Quiet → List Errand → List Change → Prop
  | nil (q : Quiet) : ComesTo q [] []
  | change {q : Quiet} {rest : List Errand} {changes : List Change} (change : Change) :
    ComesTo (q.step change).2 rest changes →
      ComesTo q (.change change :: rest) (change :: changes)
  | fragment {q : Quiet} {action : LoaderAction} {f : Fragment} {rest : List Errand}
    {part changes : List Change} : q.runErrand (.fragment action f) = q.after part →
    ComesTo (q.after part) rest changes →
      ComesTo q (.fragment action f :: rest) (part ++ changes)

theorem ComesTo.runErrands_eq {errands : List Errand} {changes : List Change}
    (h : ComesTo q errands changes) : q.runErrands errands = q.after changes := by
  induction h with
  | nil q => rfl
  | change change _ ih => exact ih
  | fragment hpart _ ih =>
    rw [after_append, ← ih, ← hpart]
    rfl

theorem exists_part (q : Quiet) (action : LoaderAction) (f : Fragment) :
    ∃ part, q.runErrand (.fragment action f) = q.after part := by
  cases action with
  | load => exact MadeOfChanges.load f q
  | unload => exact MadeOfChanges.unload f q
  | overwrite => exact MadeOfChanges.reload f q

theorem exists_comesTo (q : Quiet) (errands : List Errand) :
    ∃ changes, ComesTo q errands changes := by
  induction errands generalizing q with
  | nil => exact ⟨[], .nil q⟩
  | cons errand rest ih =>
    cases errand with
    | change change =>
      obtain ⟨changes, hchanges⟩ := ih (q.step change).2
      exact ⟨_, .change change hchanges⟩
    | fragment action f =>
      obtain ⟨part, hpart⟩ := q.exists_part action f
      obtain ⟨changes, hchanges⟩ := ih (q.after part)
      exact ⟨_, .fragment hpart hchanges⟩

/-- How containers come by their order, after these changes of an empty store. -/
structure OrdersKept (changes : List Change) : Prop where
  /-- A schema has its container. It has kept the order that was found when the schema was declared,
  and where no container was found the order of the schema. -/
  registered {id : Id} {schema : Schema} :
    (Quiet.after {} changes).store.schema? id = some schema → ∃ order, Since
      (fun q change => change = .declareContainer schema ∧ (q.step change).1 = .ok .declared ∧
        schema.id = id ∧ order = (q.store.order? id).getD schema.order)
      (fun q => q.store.schema? id = some schema ∧ q.store.payload? id = some (.container order))
      changes
  /-- A container has kept the order with which it came into being, where there was no value or an
  unset one. -/
  born {id : Id} {order : KeyOrder} :
    (Quiet.after {} changes).store.payload? id = some (.container order) → Since
      (fun q change => q.store.found id = .unset ∧ change.Offers q.store id (.container order))
      (fun q => q.store.payload? id = some (.container order)) changes
  /-- It gives its keys as they were added if it is ordered, and sorted if not. -/
  keys {id : Id} {order : KeyOrder} :
    (Quiet.after {} changes).store.payload? id = some (.container order) →
      ∃ keys, (Quiet.after {} changes).store.keys id = .ok keys ∧
        keys.Perm ((Quiet.after {} changes).store.keysAt id) ∧
          order.Arranges ((Quiet.after {} changes).keysTold id) keys

/-- Whatever is done to an empty store, a container keeps the order with which it came into being,
and a schema that comes later does not change it. -/
theorem ordersKept (errands : List Errand) :
    ∃ changes, ComesTo {} errands changes ∧ Quiet.runErrands {} errands = Quiet.after {} changes ∧
      OrdersKept changes := by
  obtain ⟨changes, hchanges⟩ := Quiet.exists_comesTo {} errands
  exact ⟨changes, hchanges, hchanges.runErrands_eq, schema_since, container_since,
    keys_arranged changes⟩

/-- A container of lamps that was declared with ordered keys and is declared again without: its
schema says the one and its payload the other, and the keys stand as they were added. -/
theorem order_overruled :
    let lamps : Id := ⟨["lamps"]⟩
    let s := (Quiet.after {} [.declareContainer ⟨lamps, .ordered, []⟩, .addKey lamps "b" .local,
      .addKey lamps "a" .local, .declareContainer ⟨lamps, .unordered, []⟩]).store
    s.schema? lamps = some ⟨lamps, .unordered, []⟩ ∧
      s.payload? lamps = some (.container .ordered) ∧ s.keys lamps = .ok ["b", "a"] := by
  decide +kernel

end Quiet

end ValueTree
