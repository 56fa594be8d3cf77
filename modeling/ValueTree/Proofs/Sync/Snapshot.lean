import ValueTree.Proofs.Store.Agreement
import ValueTree.Proofs.Store.KeyNames
import ValueTree.Proofs.Sync.Admission

/-!
# Snapshots

The values of a store bring its containers to another one, but none of their keys: a value does not
say what keys it has. A store that comes late has the keys once the directives are repeated to it.
-/

namespace ValueTree

/-- The keys in the order in which a container reports them. -/
def KeyOrder.arrange (order : KeyOrder) (keys : List String) : List String :=
  match order with
  | .ordered => keys
  | .unordered => keys.mergeSort fun a b => (compare a b).isLE

namespace Store

variable {s own : Store} {id x : Id} {value : Value} {key : String} {order : KeyOrder}
  {keys : List String}

/-! ## Taking over values -/

theorem takeOver_wellFormed (h : s.WellFormed) (value : Value) : (s.takeOver value).WellFormed := by
  unfold takeOver
  split
  · exact h
  · exact h.write ..

/-- Other ids are not touched. -/
theorem content?_takeOver_ne (h : value.id ≠ x) : (s.takeOver value).content? x = s.content? x := by
  unfold takeOver setValue write create assignAt
  repeat' split
  all_goals first
    | rfl
    | simp [content?_add, content?_put, h]

theorem content?_takeOver_new (hnew : s.content? value.id = none)
    (hcontainer : value.payload = .container order) :
    (s.takeOver value).content? value.id = some ⟨.container order, []⟩ := by
  have hnone : s.node? value.id = none := has_eq_false.mp (content?_eq_none.mp hnew)
  have hkind : s.kind? value.id = none := by simp [kind?, get?, hnone]
  have hassign : Payload.unset.assign (.container order) = .ok (.success, .container order) := rfl
  simp [takeOver, hkind, setValue, write, hnone, create, hcontainer, hassign, content?_add]

def takeOverAll (s : Store) (values : List Value) : Store := values.foldl takeOver s

theorem takeOverAll_wellFormed (h : s.WellFormed) (values : List Value) :
    (s.takeOverAll values).WellFormed := by
  induction values generalizing s with
  | nil => exact h
  | cons value rest ih => exact ih (takeOver_wellFormed h value)

theorem content?_takeOverAll_notMem {values : List Value} (h : x ∉ values.map (·.id)) :
    (s.takeOverAll values).content? x = s.content? x := by
  induction values generalizing s with
  | nil => rfl
  | cons value rest ih =>
    rw [List.map_cons, List.mem_cons, not_or] at h
    exact (ih h.2).trans (content?_takeOver_ne (Ne.symm h.1))

/-- Where each id comes once, its container comes into being without keys. -/
theorem content?_takeOverAll {values : List Value} (hnodup : (values.map (·.id)).Nodup)
    (hnew : s.content? value.id = none) (hvalue : value ∈ values)
    (hcontainer : value.payload = .container order) :
    (s.takeOverAll values).content? value.id = some ⟨.container order, []⟩ := by
  induction values generalizing s with
  | nil => simp at hvalue
  | cons head rest ih =>
    obtain ⟨hhead, hrest⟩ := List.nodup_cons.mp hnodup
    rcases List.mem_cons.mp hvalue with rfl | hvalue
    · exact (content?_takeOverAll_notMem hhead).trans (content?_takeOver_new hnew hcontainer)
    · have hne : head.id ≠ value.id := fun he => hhead (List.mem_map.mpr ⟨value, hvalue, he.symm⟩)
      exact ih hrest ((content?_takeOver_ne hne).trans hnew) hvalue

/-! ## Values of a store -/

theorem WellFormed.nodup_ids (h : s.WellFormed) : s.ids.Nodup := by
  rw [h.indexed.ids_eq]
  exact s.nodup_index

theorem WellFormed.mem_values (h : s.WellFormed) {node : Node} (hnode : s.node? id = some node) :
    node.value ∈ s.values := by
  refine List.mem_filterMap.mpr ⟨id, ?_, by rw [get?, hnode, Option.map_some]⟩
  rw [Std.ExtTreeSet.mem_toList, h.index_iff]
  exact has_eq_true.mpr ⟨node, hnode⟩

theorem WellFormed.mem_ids_of_kind? (h : s.WellFormed) {kind : Kind}
    (hkind : s.kind? id = some kind) : id ∈ s.ids := by
  obtain ⟨node, hnode, -⟩ := kind?_eq_some.mp hkind
  exact h.indexed.mem_ids.mpr (has_eq_true.mpr ⟨node, hnode⟩)

theorem node?_of_content? (h : s.content? id = some ⟨.container order, keys⟩) :
    ∃ node, s.node? id = some node ∧ node.value.kind = .container ∧ node.keys = keys := by
  obtain ⟨node, hnode, hcontent⟩ := Option.map_eq_some_iff.mp h
  exact ⟨node, hnode, congrArg (fun c => c.payload.kind) hcontent, congrArg Content.keys hcontent⟩

theorem keys_of_content? (h : s.content? id = some ⟨.container order, keys⟩) :
    s.keys id = .ok (order.arrange keys) := by
  obtain ⟨node, hnode, hcontent⟩ := Option.map_eq_some_iff.mp h
  have hpayload : node.value.payload = .container order := congrArg Content.payload hcontent
  have hkeys : node.keys = keys := congrArg Content.keys hcontent
  cases order <;> simp [Store.keys, hnode, hpayload, hkeys, KeyOrder.arrange]

theorem content?_of_kind? (h : s.kind? id = some .container) :
    ∃ order, s.content? id = some ⟨.container order, s.keysAt id⟩ := by
  obtain ⟨node, hnode, hkind⟩ := kind?_eq_some.mp h
  cases hpayload : node.value.payload with
  | container order => exact ⟨order, by simp [content?, keysAt, hnode, Node.content, hpayload]⟩
  | _ => simp [Value.kind, hpayload, Payload.kind] at hkind

/-! ## Repeating directives -/

/-- What directives to add keys say of one container. -/
def namedIn (links : List (Id × String)) (id : Id) : List String :=
  (links.filter (·.1 = id)).map (·.2)

/-- Directives that name the keys of each container in their order. The containers may take turns,
and there may be directives for other ids. -/
def ToldBy (s : Store) (links : List (Id × String)) : Prop :=
  ∀ id, s.kind? id = some .container → namedIn links id = s.keysAt id

theorem namedIn_append_singleton (links : List (Id × String)) (link : Id × String) :
    namedIn (links ++ [link]) id =
      if link.1 = id then namedIn links id ++ [link.2] else namedIn links id := by
  by_cases h : link.1 = id <;> simp [namedIn, List.filter_append, h]

def addLinks (s : Store) (links : List (Id × String)) : Store :=
  links.foldl (fun s link => (s.addKey link.1 link.2 .remote).store) s

/-- What is there is not filled anew. -/
theorem content?_fill {values : List Value} {origin : Origin} (h : s.has x = true) :
    (s.fill origin values).1.content? x = s.content? x :=
  congrArg (Option.map Node.content) (node?_fill_old h)

theorem content?_addKey {origin : Origin} (hthere : s.has x = true)
    (hcontainer : s.content? id = some ⟨.container order, keys⟩)
    (hkey : Id.segmentFault? key = none) (hnew : key ∉ keys) :
    (s.addKey id key origin).store.content? x =
      if id = x then some ⟨.container order, keys ++ [key]⟩ else s.content? x := by
  obtain ⟨node, hnode, hcontent⟩ := Option.map_eq_some_iff.mp hcontainer
  have hpayload : node.value.payload = .container order := congrArg Content.payload hcontent
  have hkeys : node.keys = keys := congrArg Content.keys hcontent
  have hkind : node.value.kind = .container := by rw [Value.kind, hpayload, Payload.kind]
  subst hkeys
  rw [addKey_new hnode hkind hkey hnew, content?_fill ((has_put hnode).trans hthere), content?_put,
    Node.content, hpayload]

theorem content?_addKey_ne {origin : Origin} (hthere : s.has x = true) (hne : id ≠ x) :
    (s.addKey id key origin).store.content? x = s.content? x := by
  have hadd (value : Value) (hid : value.id = id) : (s.add value).content? x = s.content? x := by
    rw [content?_add, if_neg (hid ▸ hne)]
  have hkeyAt {t : Store} (node : Node) (root : Id) (hx : t.has x = true) :
      (t.addKeyAt id node key root origin).store.content? x = t.content? x := by
    unfold addKeyAt
    split
    · rfl
    · split
      · rfl
      · have hput (n : Node) : (t.put id n).content? x = t.content? x := by
          rw [content?_put, if_neg hne]
        exact (content?_fill (by rw [has_eq_isSome, hput, ← has_eq_isSome, hx])).trans (hput _)
  unfold addKey
  split
  · rfl
  · split
    · exact hkeyAt _ _ hthere
    · rfl
    · refine (hkeyAt _ _ ?_).trans (hadd _ rfl)
      rw [has_eq_isSome, hadd _ rfl, ← has_eq_isSome, hthere]

/-- The containers of a store, each with the keys that were told of it. -/
def HasContainers (s own : Store) (told : List (Id × String)) : Prop :=
  ∀ id order keys, own.content? id = some ⟨.container order, keys⟩ →
    s.content? id = some ⟨.container order, namedIn told id⟩

theorem addLinks_wellFormed (h : s.WellFormed) (links : List (Id × String)) :
    (s.addLinks links).WellFormed := by
  induction links generalizing s with
  | nil => exact h
  | cons link rest ih => exact ih (h.addKey ..)

/-- A directive for a container comes with a key that is valid and not there yet. -/
theorem HasContainers.addKey {told rest : List (Id × String)} (h : s.HasContainers own told)
    (hown : own.WellFormed) (hnamed : own.KeysNamed)
    (htold : own.ToldBy (told ++ (id, key) :: rest)) :
    (s.addKey id key .remote).store.HasContainers own (told ++ [(id, key)]) := by
  intro x order keys hx
  have hthere : s.has x = true := by rw [has_eq_isSome, h x order keys hx]; rfl
  rw [namedIn_append_singleton]
  by_cases hne : id = x
  · subst hne
    obtain ⟨node, hnode, hkind, hkeys⟩ := node?_of_content? hx
    have hall : namedIn told id ++ key :: namedIn rest id = node.keys := by
      rw [← keysAt_of_node? hnode, ← htold id (kind?_eq_some.mpr ⟨node, hnode, hkind⟩)]
      simp [namedIn, List.filter_append]
    have hvalid : Id.segmentFault? key = none := by
      apply hnamed id key
      simp [keysAt_of_node? hnode, ← hall]
    have hnew : key ∉ namedIn told id := by
      have hnodup := hown.keys_nodup hnode
      rw [← hall] at hnodup
      intro hin
      exact (List.nodup_append.mp hnodup).2.2 key hin key List.mem_cons_self rfl
    rw [content?_addKey hthere (h id order keys hx) hvalid hnew, if_pos rfl, if_pos rfl]
  · rw [content?_addKey_ne hthere hne, if_neg hne]
    exact h x order keys hx

theorem HasContainers.addLinks {told links : List (Id × String)} (h : s.HasContainers own told)
    (hown : own.WellFormed) (hnamed : own.KeysNamed) (htold : own.ToldBy (told ++ links)) :
    (s.addLinks links).HasContainers own (told ++ links) := by
  induction links generalizing s told with
  | nil => rwa [List.append_nil]
  | cons link rest ih =>
    have hlink := h.addKey hown hnamed htold
    rw [List.append_cons] at htold ⊢
    exact ih hlink htold

theorem removeKey_of_notMem {origin : Origin}
    (hcontainer : s.content? id = some ⟨.container order, keys⟩)
    (hnamed : Id.segmentFault? key = none) (hkey : key ∉ keys) :
    s.removeKey id key origin = s.unchanged false := by
  obtain ⟨node, hnode, hkind, rfl⟩ := node?_of_content? hcontainer
  exact removeKey_absent hnode hkind hnamed hkey

/-- A key goes with all that lies below it. -/
theorem has_removeKey (hs : s.WellFormed) {origin : Origin}
    (hcontainer : s.content? id = some ⟨.container order, keys⟩) (hkey : key ∈ keys)
    (hnamed : Id.segmentFault? key = none) (hx : x.startsWith (id.child key) = true) :
    (s.removeKey id key origin).store.has x = false := by
  obtain ⟨node, hnode, hkind, rfl⟩ := node?_of_content? hcontainer
  rw [removeKey_old hnode hkind hnamed hkey, ← content?_eq_none, content?_eraseAll]
  split
  · rfl
  · rename_i hout
    have hgone : s.has x = false := by
      rw [Bool.eq_false_iff]
      exact fun hthere => hout (hs.indexed.mem_subtree_iff.mpr ⟨hthere, hx⟩)
    have hne : id ≠ x := by
      rintro rfl
      simp [has, hnode] at hgone
    rw [content?_put, if_neg hne, content?_eq_none.mpr hgone]

end Store

/-- What values say does not settle what the keys are: the same values may have come with their keys
the other way round. -/
theorem keys_not_of_values :
    ¬∃ read : List Value → Id → Except StoreError (List String), ∀ changes id,
      (Quiet.after {} changes).store.keys id = read (Quiet.after {} changes).store.values id := by
  rintro ⟨read, hread⟩
  let declared : Change := .declareContainer ⟨⟨["c"]⟩, .ordered, []⟩
  let forth := [declared, .addKey ⟨["c"]⟩ "j" .local, .addKey ⟨["c"]⟩ "k" .local]
  let back := [declared, .addKey ⟨["c"]⟩ "k" .local, .addKey ⟨["c"]⟩ "j" .local]
  have hvalues : (Quiet.after {} forth).store.values = (Quiet.after {} back).store.values := by
    decide +kernel
  have hkeys := hread forth ⟨["c"]⟩
  rw [hvalues, ← hread back] at hkeys
  exact absurd (congrArg Except.toOption hkeys) (by decide +kernel)

/-! ## Receiving -/

/-- Directives that add keys. -/
def Message.naming (links : List (Id × String)) : Message :=
  .valueChanged (links.map fun (container, key) => .addKey container key)

namespace Mirror

variable {r : Mirror}

theorem receive_result (hr : r.filter.roots = []) (sequence : UInt32) (values : List Value) :
    (r.receive [.result sequence .success values]).quiet.store =
      r.quiet.store.takeOverAll values := by
  have hall : Store.letIn r.filter = Store.takeOver := by
    funext s value
    simp [Store.letIn, Filter.hides, hr]
  refine (store_applyResult r values).trans ?_
  rw [Store.letInAll, hall, Store.takeOverAll]

theorem receive_naming (links : List (Id × String)) :
    (r.receive [.naming links]).quiet.store = r.quiet.store.addLinks links := by
  change (((links.map fun (link : Id × String) => Update.addKey link.1 link.2).forM fun update => do
    let _ ← (Receiver.applyUpdate update : StateM Mirror Bool)) r).2.quiet.store = _
  induction links generalizing r with
  | nil => rfl
  | cons link rest ih => exact ih

theorem receive_removeKey (id : Id) (key : String) :
    (r.receive [.valueChanged [.removeKey id key]]).quiet =
      (r.quiet.accept (r.quiet.store.removeKey id key .remote)).2 := rfl

/-- How a store that comes late stands to the one whose values it took over. -/
structure CameLate (own : Store) (late : Mirror) : Prop where
  /-- Every container is there, with no keys. -/
  keyless {id : Id} : own.kind? id = some .container → late.quiet.store.keys id = .ok []
  /-- The removal of a key does nothing, not even to its instance. -/
  deaf {id : Id} {key : String} : key ∈ own.keysAt id →
    (late.receive [.valueChanged [.removeKey id key]]).quiet = late.quiet
  /-- Once directives have named the keys, each container has them all, in their order. -/
  told {links : List (Id × String)} : own.ToldBy links → ∀ {id}, own.kind? id = some .container →
    (late.receive [.naming links]).quiet.store.keys id = own.keys id
  /-- And from then on a key is removed with all that lies at or below its instance. -/
  removed {links : List (Id × String)} : own.ToldBy links → ∀ {id key}, key ∈ own.keysAt id →
    ∀ {x}, x.startsWith (id.child key) = true →
      ((late.receive [.naming links]).receive
        [.valueChanged [.removeKey id key]]).quiet.store.has x = false

theorem CameLate.of_hasContainers {own : Store} {late : Mirror} (hown : own.WellFormed)
    (hnamed : own.KeysNamed) (hlate : late.quiet.store.WellFormed)
    (hcontainers : late.quiet.store.HasContainers own []) : CameLate own late := by
  have hkind {id : Id} {key : String} (hkey : key ∈ own.keysAt id) :
      own.kind? id = some .container := hown.kind?_of_mem_keysAt hkey
  have hafter {links : List (Id × String)} (htold : own.ToldBy links) :
      (late.receive [.naming links]).quiet.store.HasContainers own links := by
    rw [receive_naming]
    exact hcontainers.addLinks hown hnamed htold
  constructor
  · intro id hcontainer
    obtain ⟨order, hcontent⟩ := Store.content?_of_kind? hcontainer
    rw [Store.keys_of_content? (hcontainers id order _ hcontent)]
    cases order <;> simp [Store.namedIn, KeyOrder.arrange]
  · intro id key hkey
    obtain ⟨order, hcontent⟩ := Store.content?_of_kind? (hkind hkey)
    have hnew : key ∉ Store.namedIn [] id := by simp [Store.namedIn]
    have hnothing : late.quiet.store.removeKey id key .remote = late.quiet.store.unchanged false :=
      Store.removeKey_of_notMem (hcontainers id order _ hcontent) (hnamed id key hkey) hnew
    rw [receive_removeKey, hnothing]
    simp [Quiet.accept, Store.unchanged]
  · intro links htold id hcontainer
    obtain ⟨order, hcontent⟩ := Store.content?_of_kind? hcontainer
    rw [Store.keys_of_content? (hafter htold id order _ hcontent), Store.keys_of_content? hcontent,
      htold id hcontainer]
  · intro links htold id key hkey x hx
    obtain ⟨order, hcontent⟩ := Store.content?_of_kind? (hkind hkey)
    have hwellFormed : (late.receive [.naming links]).quiet.store.WellFormed := by
      rw [receive_naming]
      exact Store.addLinks_wellFormed hlate links
    rw [receive_removeKey]
    exact Store.has_removeKey hwellFormed (hafter htold id order _ hcontent)
      ((htold id (hkind hkey)).symm ▸ hkey) (hnamed id key hkey) hx

/-- A store that has taken over all values of another one has its containers, but no keys yet. -/
theorem cameLate (changes : List Change) (app : String) (sequence : UInt32) :
    let own := (Quiet.after {} changes).store
    CameLate own
      (({ filter := { app } } : Mirror).receive [.result sequence .success own.values]) := by
  intro own
  have hown : own.WellFormed := Quiet.wellFormed_run Store.wellFormed_empty changes
  have hnamed : own.KeysNamed := Quiet.keysNamed_after changes
  have hstore : (({ filter := { app } } : Mirror).receive
      [.result sequence .success own.values]).quiet.store = Store.takeOverAll {} own.values :=
    receive_result rfl sequence own.values
  apply CameLate.of_hasContainers hown hnamed
  · rw [hstore]
    exact Store.takeOverAll_wellFormed Store.wellFormed_empty _
  · intro id order keys hid
    obtain ⟨node, hnode, hcontent⟩ := Option.map_eq_some_iff.mp hid
    have hpayload : node.value.payload = .container order := congrArg Content.payload hcontent
    have hplace : node.value.id = id := hown.node_id hnode
    subst hplace
    rw [hstore]
    exact Store.content?_takeOverAll hown.nodup_ids rfl (hown.mem_values hnode) hpayload

/-- The values bring the container of an instance, but not its key. So the key is not there to be
removed, and the instance stays. -/
theorem keys_missing :
    let own := (Quiet.after {}
      [.declareContainer ⟨⟨["c"]⟩, .ordered, []⟩, .addKey ⟨["c"]⟩ "k" .local]).store
    let late := ({ filter := { app := "svc" } } : Mirror).receive [.result 1 .success own.values]
    (own.keys ⟨["c"]⟩).toOption = some ["k"] ∧
      (late.quiet.store.keys ⟨["c"]⟩).toOption = some [] ∧
      (late.receive [.valueChanged [.removeKey ⟨["c"]⟩ "k"]]).quiet.store.has ⟨["c", "k"]⟩ =
        true := by
  decide +kernel

/-- A container below an instance of another one: both have their keys once they are named. -/
theorem cameLate_nested :
    let changes : List Change := [
      .declareContainer ⟨⟨["c"]⟩, .ordered, [⟨⟨["c", "+", "d"]⟩, .container .ordered, .readOnly⟩]⟩,
      .addKey ⟨["c"]⟩ "y" .local, .addKey ⟨["c"]⟩ "x" .local,
      .addKey ⟨["c", "x", "d"]⟩ "k" .local,
      .set ⟨["c", "x", "d", "k", "n"]⟩ (.bool true) .local]
    let links : List (Id × String) :=
      [(⟨["c"]⟩, "y"), (⟨["c", "x", "d"]⟩, "k"), (⟨["c"]⟩, "x")]
    let own := (Quiet.after {} changes).store
    let late := ({ filter := { app := "svc" } } : Mirror).receive [.result 1 .success own.values]
    let told := late.receive [.naming links]
    late.quiet.store.keys ⟨["c"]⟩ = .ok [] ∧
      (told.quiet.store.keys ⟨["c"]⟩).toOption = some ["y", "x"] ∧
      told.quiet.store.has ⟨["c", "x", "d", "k", "n"]⟩ = true ∧
      (told.receive [.valueChanged [.removeKey ⟨["c"]⟩ "x"]]).quiet.store.has
        ⟨["c", "x", "d", "k", "n"]⟩ = false := by
  intro changes links own late told
  have hlate : CameLate own late := cameLate changes "svc" 1
  have hall : ∀ id ∈ own.ids,
      own.kind? id = some .container → Store.namedIn links id = own.keysAt id := by
    decide +kernel
  have htold : own.ToldBy links := fun id hid =>
    hall id ((Quiet.wellFormed_run Store.wellFormed_empty changes).mem_ids_of_kind? hid) hid
  have hcontainer : own.kind? ⟨["c"]⟩ = some .container := by decide +kernel
  have hkeys := congrArg Except.toOption (hlate.told htold hcontainer)
  refine ⟨hlate.keyless hcontainer, hkeys.trans (by decide +kernel), by decide +kernel, ?_⟩
  exact hlate.removed htold (by decide +kernel) (by decide +kernel)

end Mirror

end ValueTree
