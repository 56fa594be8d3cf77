import ValueTree.Proofs.Store.Agreement
import ValueTree.Proofs.Store.KeyNames

/-!
# Events as a log

Who hears nothing but the events of a store can keep an account of it: the ids that are there, each
with its payload and its keys. The events leave nothing out, and what they say is so.
-/

namespace ValueTree

/-- What is known to stand under each id. -/
abbrev Account := Id → Option Content

namespace Event

/-- The account with what an event says. The parent of what is removed forgets it, and a key that
goes takes along all that lies below it. -/
def amend (account : Account) (event : Event) : Account := fun x =>
  match event with
  | added value _ => if value.id = x then some ⟨value.payload, []⟩ else account x
  | changed value _ =>
    if value.id = x then (account x).map ({ · with payload := value.payload }) else account x
  | removed id _ _ => if id = x then none else (account x).map (·.retain (x.child · ≠ id))
  | keyAdded container key _ =>
    if container = x then (account x).map fun c => { c with keys := c.keys ++ [key] }
    else account x
  | keyRemoved container key _ =>
    if x.startsWith (container.child key) then none
    else if container = x then (account x).map fun c => { c with keys := c.keys.erase key }
    else account x

/-- The id that an event says is gone. -/
def removed? : Event → Option Id
  | removed id _ _ => some id
  | _ => none

/-- The key that an event says a container has got. -/
def keyAdded? (x : Id) : Event → Option String
  | keyAdded container key _ => if container = x then some key else none
  | _ => none

/-- The keys that an account has of a container. -/
def keysIn (account : Account) (x : Id) : List String := ((account x).map (·.keys)).getD []

/-- A new key comes last in an account, and nothing else is moved. -/
theorem keysIn_amend {account : Account} {event : Event} {x : Id} :
    (keysIn (amend account event) x).Sublist
      (keysIn account x ++ (event.keyAdded? x).toList) := by
  unfold keysIn
  cases event with
  | added value origin =>
    simp only [amend, keyAdded?]
    split <;> simp
  | changed value origin =>
    simp only [amend, keyAdded?]
    split <;> cases account x <;> simp
  | removed id token origin =>
    simp only [amend, keyAdded?]
    split <;> cases account x <;> simp [Content.retain]
  | keyAdded container key origin =>
    simp only [amend, keyAdded?]
    split <;> cases account x <;> simp
  | keyRemoved container key origin =>
    simp only [amend, keyAdded?]
    split
    · simp
    · split <;> cases account x <;> simp [List.erase_sublist]

theorem keysIn_foldl_amend {account : Account} {events : List Event} {x : Id} :
    (keysIn (events.foldl amend account) x).Sublist
      (keysIn account x ++ events.filterMap (keyAdded? x)) := by
  induction events generalizing account with
  | nil => simp
  | cons event rest ih =>
    refine ih.trans ?_
    have hcons : (event :: rest).filterMap (keyAdded? x) =
        (event.keyAdded? x).toList ++ rest.filterMap (keyAdded? x) := by
      rw [List.filterMap_cons]
      cases event.keyAdded? x <;> rfl
    rw [hcons, ← List.append_assoc]
    exact keysIn_amend.append (List.Sublist.refl _)

end Event

/-- The events of a change tell all that it did to the store. -/
def Outcome.Logged {α : Type} (o : Outcome α) (s : Store) : Prop :=
  o.events.foldl Event.amend s.content? = o.store.content?

namespace Store

variable {s : Store} {id x : Id} {node : Node} {payload : Payload} {access : Access}
  {origin : Origin} {key : String}

/-! ## Writing -/

theorem logged_create : (s.create id payload access origin).Logged s := by
  unfold create
  split
  · rfl
  · funext x
    simp [Event.amend, content?_add]

theorem logged_assignAt (hnode : s.node? id = some node) (hid : node.value.id = id) :
    (s.assignAt id node payload origin).Logged s := by
  unfold assignAt
  split
  · rfl
  · rfl
  · rename_i value hassign
    obtain ⟨result, -, rfl⟩ := Value.assign_eq_ok.mp hassign
    funext x
    simp only [List.foldl_cons, List.foldl_nil, Event.amend, content?_put, hid]
    split
    · subst_vars
      simp [content?, hnode, Node.content]
    · rfl

theorem Indexed.logged_write (h : s.Indexed) : (s.write id payload access origin).Logged s := by
  unfold write
  split
  · exact logged_create
  · split
    · rfl
    · exact logged_assignAt ‹_› (h.node_id ‹_›)

theorem Indexed.logged_declare (h : s.Indexed) : (s.declare id payload access).Logged s := by
  unfold declare
  split
  · exact logged_create
  · rename_i node hnode
    -- The access mode that is settled first is no part of the contents.
    let own : Node := { node with value := { node.value with access } }
    have hid : node.value.id = id := h.node_id hnode
    have hsame : (s.put id own).content? = s.content? :=
      funext (Agrees.put_left (fun _ => rfl) hnode rfl)
    have hassign : ((s.put id own).assignAt id own payload .local).Logged (s.put id own) :=
      logged_assignAt (by rw [node?_put, if_pos rfl]) hid
    unfold Outcome.Logged at hassign ⊢
    rwa [hsame] at hassign

/-! ## Removing -/

theorem foldl_removed (ids : List Id) (account : Account) :
    (ids.map fun r => Event.removed r r.token origin).foldl Event.amend account x =
      if x ∈ ids then none else (account x).map (·.retain (x.child · ∉ ids)) := by
  induction ids generalizing account with
  | nil =>
    simp only [List.map_nil, List.foldl_nil, List.not_mem_nil, if_false, not_false_eq_true,
      decide_true]
    cases account x with
    | none => rfl
    | some c => exact congrArg some (Content.retain_eq_self fun _ _ => rfl).symm
  | cons r rest ih =>
    rw [List.map_cons, List.foldl_cons, ih, Event.amend]
    by_cases hx : r = x
    · simp [hx]
    · rw [if_neg hx, Option.map_map]
      simp only [List.mem_cons, Ne.symm hx, false_or, Function.comp_def, Content.retain_retain,
        not_or, ne_eq, Bool.decide_and, Bool.and_comm]

theorem Indexed.logged_remove (h : s.Indexed) : (s.remove id origin).Logged s := by
  cases hhas : s.has id with
  | false => simp [remove, hhas, Outcome.Logged, unchanged]
  | true =>
    unfold Outcome.Logged
    rw [h.events_remove hhas]
    funext x
    rw [foldl_removed]
    simp only [remove, hhas, if_true, content?_eraseAll, content?_unlink, List.mem_reverse,
      h.mem_subtree_iff]
    cases hx : s.has x with
    | false => simp [content?_eq_none.mpr hx]
    | true =>
      cases hbelow : x.startsWith id with
      | true => simp
      | false =>
        obtain ⟨c, hc⟩ := Option.isSome_iff_exists.mp (has_eq_isSome ▸ hx)
        simp only [hc, Option.map_some, Bool.false_eq_true, and_false, if_false]
        -- Of all the ids that go, the id itself is the only one that may be a key of `x`.
        congr 2
        funext key
        by_cases hkey : x.child key = id
        · simp [hkey, hhas]
        · simp [Id.child_startsWith_iff, hbelow, hkey]

theorem Indexed.logged_removeWithToken (h : s.Indexed) {token : Token} :
    (s.removeWithToken id token origin).Logged s := by
  unfold removeWithToken
  split
  · exact h.logged_remove
  · rfl

/-! ## Containers -/

theorem logged_fill (values : List Value) :
    (s.fill origin values).2.foldl Event.amend s.content? = (s.fill origin values).1.content? := by
  induction values generalizing s with
  | nil => rfl
  | cons value rest ih =>
    cases hhas : s.has value.id with
    | true =>
      rw [fill_cons_old hhas]
      exact ih
    | false =>
      have hadd : Event.amend s.content? (.added value origin) = (s.add value).content? := by
        funext x
        rw [Event.amend, content?_add]
      rw [fill_cons_new hhas, List.foldl_cons, hadd]
      exact ih

theorem logged_addKeyAt {root : Id} (hnode : s.node? id = some node) :
    (s.addKeyAt id node key root origin).Logged s := by
  unfold addKeyAt
  split
  · rfl
  · split
    · rfl
    · have hlink : Event.amend s.content? (.keyAdded id key origin) =
          (s.put id { node with keys := node.keys ++ [key] }).content? := by
        funext x
        simp only [Event.amend, content?_put]
        split
        · subst_vars
          simp [content?, hnode, Node.content]
        · rfl
      unfold Outcome.Logged
      rw [List.foldl_cons, hlink]
      exact logged_fill _

theorem logged_addKey : (s.addKey id key origin).Logged s := by
  unfold addKey
  split
  · rfl
  · split
    · exact logged_addKeyAt ‹_›
    · rfl
    · have hadd : Event.amend s.content? (.added { id, payload := .container .ordered } .remote) =
          (s.add { id, payload := .container .ordered }).content? := by
        funext x
        rw [Event.amend, content?_add]
      unfold Outcome.Logged
      rw [List.foldl_cons, hadd]
      exact logged_addKeyAt (by rw [node?_add, if_pos rfl])

theorem Indexed.logged_removeKeyAt (h : s.Indexed) (hnode : s.node? id = some node) :
    (s.removeKeyAt id node key (id.child key) origin).Logged s := by
  unfold removeKeyAt
  split
  · rfl
  · split
    · rfl
    · funext x
      simp only [List.foldl_cons, List.foldl_nil, Event.amend, content?_eraseAll, content?_put,
        h.mem_subtree_iff]
      cases hhas : s.has x with
      | false =>
        have hne : id ≠ x := by
          rintro rfl
          simp [has, hnode] at hhas
        simp [hne, content?_eq_none.mpr hhas]
      | true =>
        by_cases hx : id = x
        · subst hx
          simp [content?, hnode, Node.content]
        · simp [hx]

theorem Indexed.logged_removeKey (h : s.Indexed) : (s.removeKey id key origin).Logged s := by
  unfold removeKey
  split
  · rfl
  · rename_i root hjoin
    obtain ⟨-, rfl⟩ := Id.join_eq_ok_iff.mp hjoin
    split
    · rfl
    · exact h.logged_removeKeyAt ‹_›

/-! ## Turns -/

/-- One change, with the events that tell of it. -/
inductive Turn (s : Store) : Store → List Event → Prop
  | write (id : Id) (payload : Payload) (access : Access) (origin : Origin) :
    Turn s (s.write id payload access origin).store (s.write id payload access origin).events
  | declare (id : Id) (payload : Payload) (access : Access) :
    Turn s (s.declare id payload access).store (s.declare id payload access).events
  | remove (id : Id) (origin : Origin) :
    Turn s (s.remove id origin).store (s.remove id origin).events
  | removeWithToken (id : Id) (token : Token) (origin : Origin) :
    Turn s (s.removeWithToken id token origin).store (s.removeWithToken id token origin).events
  | addKey (container : Id) (key : String) (origin : Origin) :
    Turn s (s.addKey container key origin).store (s.addKey container key origin).events
  | removeKey (container : Id) (key : String) (origin : Origin) :
    Turn s (s.removeKey container key origin).store (s.removeKey container key origin).events
  | putSchema (schema : Schema) : Turn s (s.putSchema schema) []
  | dropSchema (id : Id) : Turn s (s.dropSchema id) []

variable {t : Store} {events : List Event}

theorem Turn.step (h : s.Turn t events) : ∃ declared, s.Step declared t := by
  cases h with
  | write => exact ⟨[], .write ..⟩
  | declare => exact ⟨[], .declare ..⟩
  | remove => exact ⟨[], .remove ..⟩
  | removeWithToken => exact ⟨[], .removeWithToken ..⟩
  | addKey => exact ⟨[], .addKey ..⟩
  | removeKey => exact ⟨[], .removeKey ..⟩
  | putSchema schema => exact ⟨[schema], .putSchema (List.mem_singleton.mpr rfl)⟩
  | dropSchema => exact ⟨[], .dropSchema _⟩

theorem Indexed.turn (h : s.Indexed) (ht : s.Turn t events) : t.Indexed := by
  obtain ⟨declared, hstep⟩ := ht.step
  exact h.edits hstep.edits

theorem Indexed.logged (h : s.Indexed) (ht : s.Turn t events) :
    events.foldl Event.amend s.content? = t.content? := by
  cases ht with
  | write => exact h.logged_write
  | declare => exact h.logged_declare
  | remove => exact h.logged_remove
  | removeWithToken => exact h.logged_removeWithToken
  | addKey => exact logged_addKey
  | removeKey => exact h.logged_removeKey
  | putSchema => rfl
  | dropSchema => rfl

/-! ## Which events there are -/

section

variable {event : Event}

theorem mem_events_create (h : event ∈ (s.create id payload access origin).events) :
    ∃ value, event = .added value origin := by
  unfold create at h
  split at h
  · cases h
  · exact ⟨_, List.mem_singleton.mp h⟩

theorem mem_events_assignAt (h : event ∈ (s.assignAt id node payload origin).events) :
    ∃ value, event = .changed value origin := by
  unfold assignAt at h
  split at h
  · cases h
  · cases h
  · exact ⟨_, List.mem_singleton.mp h⟩

theorem mem_events_write (h : event ∈ (s.write id payload access origin).events) :
    ∃ value, event = .added value origin ∨ event = .changed value origin := by
  unfold write at h
  split at h
  · exact (mem_events_create h).imp fun _ => Or.inl
  · split at h
    · cases h
    · exact (mem_events_assignAt h).imp fun _ => Or.inr

theorem mem_events_declare (h : event ∈ (s.declare id payload access).events) :
    ∃ value, event = .added value .local ∨ event = .changed value .local := by
  unfold declare at h
  split at h
  · exact (mem_events_create h).imp fun _ => Or.inl
  · exact (mem_events_assignAt h).imp fun _ => Or.inr

theorem mem_events_remove (h : event ∈ (s.remove id origin).events) :
    ∃ x : Id, event = .removed x x.token origin := by
  unfold remove at h
  split at h
  · obtain ⟨value, -, rfl⟩ := List.mem_map.mp h
    exact ⟨value.id, rfl⟩
  · cases h

theorem mem_events_fill {values : List Value} (h : event ∈ (s.fill origin values).2) :
    ∃ value, event = .added value origin := by
  induction values generalizing s with
  | nil => cases h
  | cons value rest ih =>
    cases hhas : s.has value.id with
    | true =>
      rw [fill_cons_old hhas] at h
      exact ih h
    | false =>
      rw [fill_cons_new hhas] at h
      rcases List.mem_cons.mp h with rfl | h
      · exact ⟨value, rfl⟩
      · exact ih h

theorem mem_events_addKeyAt {root : Id}
    (h : event ∈ (s.addKeyAt id node key root origin).events) :
    event = .keyAdded id key origin ∨ ∃ value, event = .added value origin := by
  unfold addKeyAt at h
  split at h
  · cases h
  · split at h
    · cases h
    · exact (List.mem_cons.mp h).imp_right mem_events_fill

theorem mem_events_addKey (h : event ∈ (s.addKey id key origin).events) :
    event = .keyAdded id key origin ∨ ∃ value, event = .added value origin := by
  unfold addKey at h
  split at h
  · cases h
  · split at h
    · exact mem_events_addKeyAt h
    · cases h
    · rcases List.mem_cons.mp h with rfl | h
      · exact Or.inr ⟨_, rfl⟩
      · exact mem_events_addKeyAt h

theorem mem_events_removeKey (h : event ∈ (s.removeKey id key origin).events) :
    event = .keyRemoved id key origin := by
  unfold removeKey at h
  split at h
  · cases h
  · split at h
    · cases h
    · unfold removeKeyAt at h
      split at h
      · cases h
      · split at h
        · cases h
        · exact List.mem_singleton.mp h

end

/-! ## Removals among the events -/

theorem Indexed.removed?_remove (h : s.Indexed) (hhas : s.has id = true) :
    (s.remove id origin).events.filterMap Event.removed? = (s.subtree id).reverse := by
  rw [h.events_remove hhas, List.filterMap_map]
  exact List.filterMap_some

theorem remove_of_not_has (hhas : s.has id = false) : s.remove id origin = s.unchanged false := by
  simp [remove, hhas]

/-- Only removals tell of what is gone. -/
theorem Turn.removed? (h : s.Turn t events) :
    events.filterMap Event.removed? = [] ∨
      ∃ id origin, s.has id = true ∧ events = (s.remove id origin).events := by
  have hremove (id : Id) (origin : Origin) :
      (s.remove id origin).events.filterMap Event.removed? = [] ∨
        ∃ id' origin', s.has id' = true ∧
          (s.remove id origin).events = (s.remove id' origin').events := by
    cases hhas : s.has id with
    | false =>
      left
      rw [remove_of_not_has hhas]
      rfl
    | true => exact Or.inr ⟨id, origin, hhas, rfl⟩
  cases h with
  | write =>
    refine Or.inl (List.filterMap_eq_nil_iff.mpr fun event hevent => ?_)
    obtain ⟨value, rfl | rfl⟩ := mem_events_write hevent <;> rfl
  | declare =>
    refine Or.inl (List.filterMap_eq_nil_iff.mpr fun event hevent => ?_)
    obtain ⟨value, rfl | rfl⟩ := mem_events_declare hevent <;> rfl
  | remove id origin => exact hremove id origin
  | removeWithToken id token origin =>
    unfold Store.removeWithToken
    split
    · exact hremove id origin
    · exact Or.inl rfl
  | addKey =>
    refine Or.inl (List.filterMap_eq_nil_iff.mpr fun event hevent => ?_)
    obtain rfl | ⟨value, rfl⟩ := mem_events_addKey hevent <;> rfl
  | removeKey =>
    refine Or.inl (List.filterMap_eq_nil_iff.mpr fun event hevent => ?_)
    rw [mem_events_removeKey hevent]
    rfl
  | putSchema => exact Or.inl rfl
  | dropSchema => exact Or.inl rfl

/-- What is removed goes before what it lies below. -/
theorem Indexed.deepestFirst (h : s.Indexed) (ht : s.Turn t events) :
    (events.filterMap Event.removed?).Pairwise fun x y => y.startsWith x = false := by
  rcases ht.removed? with hnone | ⟨id, origin, hhas, rfl⟩
  · rw [hnone]
    exact List.Pairwise.nil
  · rw [h.removed?_remove hhas, List.pairwise_reverse]
    exact s.pairwise_subtree id

/-! ## Keys among the events -/

theorem keysAt_eq : s.keysAt x = Event.keysIn s.content? x := by
  simp [keysAt, Event.keysIn, content?, Function.comp_def, Node.content]

/-- The keys that stay keep their order, and those that are told of come after them. -/
theorem Indexed.keysAt_turn (h : s.Indexed) (ht : s.Turn t events) (x : Id) :
    (t.keysAt x).Sublist (s.keysAt x ++ events.filterMap (Event.keyAdded? x)) := by
  rw [keysAt_eq, keysAt_eq, ← h.logged ht]
  exact Event.keysIn_foldl_amend

theorem keyAdded?_addKeyAt (s : Store) (id x : Id) (node : Node) (key : String) (root : Id)
    (origin : Origin) :
    (s.addKeyAt id node key root origin).events.filterMap (Event.keyAdded? x) = [] ∨
      id = x ∧ key ∉ node.keys ∧
        (s.addKeyAt id node key root origin).events.filterMap (Event.keyAdded? x) = [key] := by
  unfold addKeyAt
  split
  · exact Or.inl rfl
  · split
    · exact Or.inl rfl
    · rename_i hnew
      have hfill (values : List Value) (s : Store) :
          (s.fill origin values).2.filterMap (Event.keyAdded? x) = [] := by
        refine List.filterMap_eq_nil_iff.mpr fun event hevent => ?_
        obtain ⟨value, rfl⟩ := mem_events_fill hevent
        rfl
      by_cases hx : id = x
      · exact Or.inr ⟨hx, hnew, by simp [Event.keyAdded?, hx, hfill]⟩
      · exact Or.inl (by simp [Event.keyAdded?, hx, hfill])

/-- A key that a container is said to get is one that it had not. -/
theorem Turn.keyAdded? (h : s.Turn t events) (x : Id) :
    events.filterMap (Event.keyAdded? x) = [] ∨
      ∃ key, key ∉ s.keysAt x ∧ events.filterMap (Event.keyAdded? x) = [key] := by
  have hremove (id : Id) (origin : Origin) :
      (s.remove id origin).events.filterMap (Event.keyAdded? x) = [] := by
    refine List.filterMap_eq_nil_iff.mpr fun event hevent => ?_
    obtain ⟨r, rfl⟩ := mem_events_remove hevent
    rfl
  cases h with
  | write =>
    refine Or.inl (List.filterMap_eq_nil_iff.mpr fun event hevent => ?_)
    obtain ⟨value, rfl | rfl⟩ := mem_events_write hevent <;> rfl
  | declare =>
    refine Or.inl (List.filterMap_eq_nil_iff.mpr fun event hevent => ?_)
    obtain ⟨value, rfl | rfl⟩ := mem_events_declare hevent <;> rfl
  | remove id origin => exact Or.inl (hremove id origin)
  | removeWithToken id token origin =>
    unfold Store.removeWithToken
    split
    · exact Or.inl (hremove id origin)
    · exact Or.inl rfl
  | addKey container key origin =>
    unfold Store.addKey
    split
    · exact Or.inl rfl
    · rename_i root _
      split
      · rename_i node hnode
        refine (s.keyAdded?_addKeyAt container x node key root _).imp_right ?_
        rintro ⟨rfl, hnew, htold⟩
        exact ⟨key, keysAt_of_node? hnode ▸ hnew, htold⟩
      · exact Or.inl rfl
      · rename_i hnone
        let value : Value := { id := container, payload := .container .ordered }
        refine ((s.add value).keyAdded?_addKeyAt container x { value } key root .remote).imp_right ?_
        rintro ⟨rfl, -, htold⟩
        exact ⟨key, by simp [keysAt, hnone], htold⟩
  | removeKey =>
    refine Or.inl (List.filterMap_eq_nil_iff.mpr fun event hevent => ?_)
    rw [mem_events_removeKey hevent]
    rfl
  | putSchema => exact Or.inl rfl
  | dropSchema => exact Or.inl rfl

end Store

/-! ## Runs -/

namespace Quiet

variable {q r : Quiet}

/-- What a change may come to: nothing, or one turn, after which the schema of a container that was
declared comes in. -/
inductive Moved (q : Quiet) : Quiet → Prop
  | still : Moved q q
  | turn {t : Store} {events : List Event} : q.store.Turn t events →
    Moved q ⟨t, q.events ++ events⟩
  | declared {t : Store} {events : List Event} (schema : Schema) : q.store.Turn t events →
    Moved q ⟨t.putSchema schema, q.events ++ events⟩

theorem moved_step (change : Change) : q.Moved (q.step change).2 := by
  cases change with
  | set id payload origin => exact .turn (.write ..)
  | setValue value origin => exact .turn (.write ..)
  | declare id payload access => exact .turn (.declare ..)
  | remove id origin => exact .turn (.remove ..)
  | removeWithToken id token origin => exact .turn (.removeWithToken ..)
  | declareContainer schema =>
    rw [step_declareContainer]
    split
    · exact .still
    · dsimp only
      split
      · exact .turn (.declare ..)
      · exact .declared schema (.declare ..)
  | dropSchema id => exact .turn (.dropSchema id)
  | addKey container key origin => exact .turn (.addKey ..)
  | removeKey container key origin => exact .turn (.removeKey ..)

/-- The events that a change adds. -/
def news (q : Quiet) (change : Change) : List Event :=
  (q.step change).2.events.drop q.events.length

/-- The account of who began with nothing and heard every event. -/
def account (q : Quiet) : Account := q.events.foldl Event.amend fun _ => none

/-- The account is that of the store, which has the parts that it should have. -/
structure Accounted (q : Quiet) : Prop where
  indexed : q.store.Indexed
  account : q.account = q.store.content?

theorem Accounted.moved (h : q.Accounted) (hmoved : q.Moved r) : r.Accounted := by
  have hturn {t : Store} {events : List Event} (ht : q.store.Turn t events) :
      (q.events ++ events).foldl Event.amend (fun _ => none) = t.content? := by
    rw [List.foldl_append, ← h.indexed.logged ht, ← h.account, Quiet.account]
  cases hmoved with
  | still => exact h
  | turn ht => exact ⟨h.indexed.turn ht, hturn ht⟩
  | declared schema ht =>
    have haccount := hturn ht
    exact ⟨(h.indexed.turn ht).turn (.putSchema schema), haccount⟩

theorem accounted_after (changes : List Change) : (Quiet.after {} changes).Accounted := by
  have (q : Quiet) (h : q.Accounted) : (q.after changes).Accounted := by
    induction changes generalizing q with
    | nil => exact h
    | cons change rest ih => exact ih _ (h.moved (moved_step change))
  refine this {} ⟨.empty, ?_⟩
  funext x
  simp [account, Store.content?]

/-- What the events tell of a store. -/
structure Told (q : Quiet) : Prop where
  contents : q.account = q.store.content?
  ids (x : Id) : (q.account x).isSome ↔ x ∈ q.store.ids
  payloads (x : Id) : (q.account x).map (·.payload) = (q.store.get? x).map (·.payload)
  keys (x : Id) : ((q.account x).map (·.keys)).getD [] = q.store.keysAt x
  /-- A change adds events, and takes none back. -/
  grows (change : Change) : (q.step change).2.events = q.events ++ q.news change
  /-- No value is said to be gone after one that it lies below. -/
  deepestFirst (change : Change) :
    ((q.news change).filterMap Event.removed?).Pairwise fun x y => y.startsWith x = false
  /-- A removal says of each value that it takes away, and of no other, that it is gone. -/
  removal (id x : Id) (origin : Origin) :
    x ∈ (q.news (.remove id origin)).filterMap Event.removed? ↔
      q.store.has id = true ∧ q.store.has x = true ∧ x.startsWith id = true

/-- Whatever is done to an empty store, the events tell all of what is there afterwards. -/
theorem told_after (changes : List Change) : (Quiet.after {} changes).Told := by
  obtain ⟨hindexed, haccount⟩ := accounted_after changes
  generalize Quiet.after {} changes = q at hindexed haccount
  have hnews {r : Quiet} (hmoved : q.Moved r) : ∃ events, r.events = q.events ++ events ∧
      (events.filterMap Event.removed?).Pairwise fun x y => y.startsWith x = false := by
    cases hmoved with
    | still => exact ⟨[], by simp, .nil⟩
    | turn ht => exact ⟨_, rfl, hindexed.deepestFirst ht⟩
    | declared schema ht => exact ⟨_, rfl, hindexed.deepestFirst ht⟩
  have hstep (change : Change) : (q.step change).2.events = q.events ++ q.news change ∧
      ((q.news change).filterMap Event.removed?).Pairwise fun x y => y.startsWith x = false := by
    obtain ⟨events, hevents, hdeepest⟩ := hnews (moved_step change)
    have : q.news change = events := by rw [news, hevents, List.drop_left]
    exact this ▸ ⟨hevents, hdeepest⟩
  constructor
  · exact haccount
  · intro x
    rw [haccount, hindexed.mem_ids, Store.has_eq_isSome]
  · intro x
    simp [haccount, Store.content?, Store.get?, Function.comp_def, Node.content]
  · intro x
    simp [haccount, Store.content?, Store.keysAt, Function.comp_def, Node.content]
  · exact fun change => (hstep change).1
  · exact fun change => (hstep change).2
  · intro id x origin
    have hevents : q.news (.remove id origin) = (q.store.remove id origin).events :=
      List.drop_left
    rw [hevents]
    cases hhas : q.store.has id with
    | false => simp [Store.remove_of_not_has hhas, Store.unchanged]
    | true => simp [hindexed.removed?_remove hhas, hindexed.mem_subtree_iff]

end Quiet

end ValueTree
