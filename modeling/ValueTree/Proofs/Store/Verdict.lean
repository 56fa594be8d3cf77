import ValueTree.Proofs.Store.Log

/-!
# What the last event about an id says

The events of a store can be read for one id at a time. The last of them that is about the id tells
whether it is there, and with which payload.
-/

namespace ValueTree

namespace Event

/-- What an event says of an id: that it is gone, or that it is there with a payload. -/
def verdict? (x : Id) : Event → Option (Option Payload)
  | added value _ | changed value _ => if value.id = x then some (some value.payload) else none
  | removed id _ _ => if id = x then some none else none
  | keyAdded .. => none
  | keyRemoved container key _ => if x.startsWith (container.child key) then some none else none

def concerns (x : Id) (event : Event) : Bool := (event.verdict? x).isSome

def isChange : Event → Bool
  | changed .. => true
  | _ => false

/-- No payload is said to be replaced. -/
def ReplaceNone (events : List Event) : Prop := ∀ event ∈ events, event.isChange = false

/-- The payload under an id, as the last event about it has it. -/
def lastWord (x : Id) (events : List Event) (before : Option Payload) : Option Payload :=
  (events.filterMap (·.verdict? x)).getLast?.getD before

variable {x : Id} {event : Event} {events : List Event} {before : Option Payload}

@[simp]
theorem lastWord_nil : lastWord x [] before = before := rfl

theorem lastWord_append (events' : List Event) :
    lastWord x (events ++ events') before = lastWord x events' (lastWord x events before) := by
  unfold lastWord
  rw [List.filterMap_append, List.getLast?_append]
  cases (events'.filterMap (·.verdict? x)).getLast? <;> rfl

theorem lastWord_cons : lastWord x (event :: events) before =
    lastWord x events ((event.verdict? x).getD before) := by
  rw [← List.singleton_append, lastWord_append]
  cases hverdict : event.verdict? x <;> simp [lastWord, hverdict]

theorem lastWord_filter :
    lastWord x (events.filter (concerns x)) before = lastWord x events before := by
  unfold lastWord
  rw [List.filterMap_filter]
  congr 3
  funext event
  unfold concerns
  cases event.verdict? x <;> rfl

theorem lastWord_unconcerned (h : ∀ event ∈ events, event.verdict? x = none) :
    lastWord x events before = before := by
  rw [lastWord, List.filterMap_eq_nil_iff.mpr h]
  rfl

theorem lastWord_gone
    (h : ∀ event ∈ events, event.verdict? x = none ∨ event.verdict? x = some none) :
    lastWord x events before = before ∨ lastWord x events before = none := by
  cases hlast : (events.filterMap (·.verdict? x)).getLast? with
  | none => exact Or.inl (by rw [lastWord, hlast]; rfl)
  | some word =>
    obtain ⟨event, hmem, hverdict⟩ := List.mem_filterMap.mp (List.mem_of_getLast? hlast)
    have hword : word = none := by
      rcases h event hmem with hnone | hnone <;> simp_all
    exact Or.inr (by rw [lastWord, hlast, hword]; rfl)

/-- An account takes up what an event says, unless a payload is said to be replaced where there was
none. -/
theorem payload_amend (h : event.isChange = false) (account : Account) :
    (event.amend account x).map (·.payload) =
      (event.verdict? x).getD ((account x).map (·.payload)) := by
  cases event with
  | changed => contradiction
  | added value origin =>
    simp only [amend, verdict?]
    split <;> rfl
  | removed id token origin =>
    simp only [amend, verdict?]
    split
    · rfl
    · exact Option.map_map ..
  | keyAdded container key origin =>
    simp only [amend, verdict?]
    split
    · exact Option.map_map ..
    · rfl
  | keyRemoved container key origin =>
    simp only [amend, verdict?]
    split
    · rfl
    · split
      · exact Option.map_map ..
      · rfl

theorem ReplaceNone.of_silent (h : events = []) : ReplaceNone events :=
  fun _ hmem => nomatch h ▸ hmem

theorem payload_foldl_amend (h : ReplaceNone events) (account : Account) :
    (events.foldl amend account x).map (·.payload) =
      lastWord x events ((account x).map (·.payload)) := by
  induction events generalizing account with
  | nil => rfl
  | cons event rest ih =>
    rw [List.foldl_cons, ih fun e he => h e (List.mem_cons_of_mem _ he), lastWord_cons,
      payload_amend (h event List.mem_cons_self)]

end Event

namespace Store

variable {s t : Store} {id x : Id} {node : Node} {payload : Payload} {access : Access}
  {origin : Origin} {key : String} {events : List Event}

def payload? (s : Store) (x : Id) : Option Payload := (s.get? x).map (·.payload)

theorem payload?_eq : s.payload? x = (s.content? x).map (·.payload) := by
  unfold payload? get? content?
  rw [Option.map_map, Option.map_map]
  rfl

/-! ## Payloads that are replaced -/

theorem events_assignAt (hnode : s.node? id = some node) (hid : node.value.id = id) :
    (s.assignAt id node payload origin).events = [] ∨
      ∃ value, (s.assignAt id node payload origin).events = [.changed value origin] ∧
        s.has value.id = true := by
  unfold assignAt
  split
  · exact Or.inl rfl
  · exact Or.inl rfl
  · rename_i value hassign
    obtain ⟨result, -, rfl⟩ := Value.assign_eq_ok.mp hassign
    refine Or.inr ⟨_, rfl, has_eq_true.mpr ⟨node, ?_⟩⟩
    rw [hid, hnode]

/-- A payload that is replaced is that of an id which is there, and nothing else is told. -/
theorem Indexed.changed (h : s.Indexed) (ht : s.Turn t events) :
    Event.ReplaceNone events ∨
      ∃ value origin, events = [.changed value origin] ∧ s.has value.id = true := by
  have hcreate {id : Id} {payload : Payload} {access : Access} {origin : Origin} :
      Event.ReplaceNone (s.create id payload access origin).events := by
    intro event hevent
    obtain ⟨value, rfl⟩ := mem_events_create hevent
    rfl
  have hremove {id : Id} {origin : Origin} : Event.ReplaceNone (s.remove id origin).events := by
    intro event hevent
    obtain ⟨x, rfl⟩ := mem_events_remove hevent
    rfl
  cases ht with
  | write id payload access origin =>
    unfold write
    split
    · exact Or.inl hcreate
    · rename_i node hnode
      split
      · exact Or.inl (.of_silent rfl)
      · rcases events_assignAt hnode (h.node_id hnode) with hnone | ⟨value, hone, hhas⟩
        · exact Or.inl (.of_silent hnone)
        · exact Or.inr ⟨value, origin, hone, hhas⟩
  | declare id payload access =>
    unfold declare
    split
    · exact Or.inl hcreate
    · rename_i node hnode
      let own : Node := { node with value := { node.value with access } }
      have hown : (s.put id own).node? id = some own := by rw [node?_put, if_pos rfl]
      have hid : node.value.id = id := h.node_id hnode
      rcases events_assignAt hown hid with hnone | ⟨value, hone, hhas⟩
      · exact Or.inl (.of_silent hnone)
      · refine Or.inr ⟨value, .local, hone, ?_⟩
        rw [has, node?_put] at hhas
        split at hhas
        · rename_i heq
          exact has_eq_true.mpr ⟨node, heq ▸ hnode⟩
        · exact hhas
  | remove => exact Or.inl hremove
  | removeWithToken =>
    unfold removeWithToken
    split
    · exact Or.inl hremove
    · exact Or.inl (.of_silent rfl)
  | addKey =>
    refine Or.inl fun event hevent => ?_
    obtain rfl | ⟨value, rfl⟩ := mem_events_addKey hevent <;> rfl
  | removeKey =>
    refine Or.inl fun event hevent => ?_
    rw [mem_events_removeKey hevent]
    rfl
  | putSchema => exact Or.inl (.of_silent rfl)
  | dropSchema => exact Or.inl (.of_silent rfl)

/-- The store has the payload under an id as the last event about it does. -/
theorem Indexed.payload_turn (h : s.Indexed) (ht : s.Turn t events) (x : Id) :
    t.payload? x = Event.lastWord x events (s.payload? x) := by
  rw [payload?_eq, payload?_eq, ← h.logged ht]
  rcases h.changed ht with hnone | ⟨value, origin, rfl, hhas⟩
  · exact Event.payload_foldl_amend hnone _
  · simp only [List.foldl_cons, List.foldl_nil, Event.amend, Event.lastWord_cons,
      Event.lastWord_nil, Event.verdict?]
    split
    · subst_vars
      obtain ⟨c, hc⟩ := Option.isSome_iff_exists.mp (has_eq_isSome ▸ hhas)
      rw [hc]
      rfl
    · rfl

end Store

end ValueTree
