import ValueTree.Proofs.Store.Verdict
import ValueTree.Session
import ValueTree.Sync.Outbound

/-!
# The order in which events are handed on

A listener is handed the events of a change one after the other. Whoever hears of one of them may
bring about further changes, and the events of these are handed on before those that still wait. So
what waits is a stack.
-/

namespace ValueTree

namespace Mark

def events : Mark → List Event
  | made events => events
  | handed .. => []

def handed? (h : Hearer) : Mark → Option Event
  | made _ => none
  | handed hearer event => if hearer = h then some event else none

end Mark

namespace History

/-- The events of the changes, in the order in which these took effect. -/
def made (marks : List Mark) : List Event := marks.flatMap Mark.events

/-- What a listener was handed, in order. -/
def handed (h : Hearer) (marks : List Mark) : List Event := marks.filterMap (Mark.handed? h)

/-- No change that tells of such an event takes effect before the listener was handed all such
events that had been made by then. -/
def InTurn (h : Hearer) (p : Event → Bool) (marks : List Mark) : Prop :=
  ∀ before events after, marks = before ++ .made events :: after → (∃ event ∈ events, p event) →
    (handed h before).countP p = (made before).countP p

variable {h : Hearer} {marks : List Mark} {p : Event → Bool}

@[simp]
theorem made_change (events : List Event) :
    made (marks ++ [.made events]) = made marks ++ events := by
  simp [made, Mark.events]

@[simp]
theorem made_handed (hearer : Hearer) (event : Event) :
    made (marks ++ [.handed hearer event]) = made marks := by
  simp [made, Mark.events]

@[simp]
theorem handed_change (events : List Event) :
    handed h (marks ++ [.made events]) = handed h marks := by
  simp [handed, Mark.handed?]

@[simp]
theorem handed_hand (event : Event) :
    handed h (marks ++ [.handed h event]) = handed h marks ++ [event] := by
  simp [handed, Mark.handed?]

theorem handed_pass {hearer : Hearer} (hne : hearer ≠ h) (event : Event) :
    handed h (marks ++ [.handed hearer event]) = handed h marks := by
  simp [handed, Mark.handed?, hne]

theorem InTurn.of_concat {mark : Mark} (hturn : InTurn h p (marks ++ [mark])) :
    InTurn h p marks := by
  intro before events after hmarks
  apply hturn before events (after ++ [mark])
  rw [hmarks, List.append_assoc, List.cons_append]

theorem InTurn.concat {mark : Mark} (hturn : InTurn h p marks)
    (hlast : mark.events.any p = true → (handed h marks).countP p = (made marks).countP p) :
    InTurn h p (marks ++ [mark]) := by
  intro before events after hmarks hnew
  rcases List.eq_nil_or_concat after with rfl | ⟨after', last, rfl⟩
  · obtain ⟨rfl, hmark⟩ := List.append_inj' hmarks rfl
    obtain rfl := List.singleton_inj.mp hmark
    exact hlast (List.any_eq_true.mpr hnew)
  · rw [List.concat_eq_append, ← List.cons_append, ← List.append_assoc] at hmarks
    obtain ⟨rfl, -⟩ := List.append_inj' hmarks rfl
    exact hturn before events after' rfl hnew

end History

open History

/-- What comes to pass from a store on, with the events that the listener still waits for. -/
inductive Unfolds (h : Hearer) (s : Store) : List Mark → Store → List Event → Prop
  | start : Unfolds h s [] s []
  | change {marks : List Mark} {t u : Store} {events owed : List Event} :
    Unfolds h s marks t owed → t.Turn u events →
      Unfolds h s (marks ++ [.made events]) u (events ++ owed)
  | hand {marks : List Mark} {t : Store} {event : Event} {owed : List Event} :
    Unfolds h s marks t (event :: owed) → Unfolds h s (marks ++ [.handed h event]) t owed
  /-- Another listener is handed an event. -/
  | pass {marks : List Mark} {t : Store} {hearer : Hearer} {event : Event} {owed : List Event} :
    Unfolds h s marks t owed → hearer ≠ h → Unfolds h s (marks ++ [.handed hearer event]) t owed

namespace Unfolds

variable {h : Hearer} {s t : Store} {marks : List Mark} {owed events : List Event}
  {p : Event → Bool} {x : Id}

/-- Each event is handed on once, or waits. -/
theorem perm (hu : Unfolds h s marks t owed) : (handed h marks ++ owed).Perm (made marks) := by
  induction hu with
  | start => exact .refl _
  | @change marks t u events owed hu hturn ih =>
    rw [handed_change, made_change]
    calc handed h marks ++ (events ++ owed)
      _ |>.Perm (handed h marks ++ (owed ++ events)) := List.perm_append_comm.append_left _
      _ = (handed h marks ++ owed) ++ events := (List.append_assoc ..).symm
      _ |>.Perm (made marks ++ events) := ih.append_right _
  | hand hu ih =>
    rw [handed_hand, made_handed, List.append_assoc]
    exact ih
  | pass hu hne ih =>
    rw [handed_pass hne, made_handed]
    exact ih

/-- The events of one change are handed on in order. -/
theorem sublist (hu : Unfolds h s marks t owed) (hmem : .made events ∈ marks) :
    events.Sublist (handed h marks ++ owed) := by
  induction hu with
  | start => contradiction
  | @change marks t u new owed hu hturn ih =>
    rw [handed_change]
    rcases List.mem_append.mp hmem with hbefore | hlast
    · exact (ih hbefore).trans ((List.sublist_append_right new owed).append_left _)
    · obtain rfl : events = new := by simpa using hlast
      exact (List.sublist_append_left events owed).trans (List.sublist_append_right _ _)
  | hand hu ih =>
    rw [handed_hand, List.append_assoc]
    exact ih (by simpa using hmem)
  | pass hu hne ih =>
    rw [handed_pass hne]
    exact ih (by simpa using hmem)

/-- Events that take effect in turn are handed on in the order in which they did. -/
theorem filter_eq (hu : Unfolds h s marks t owed) (hturn : InTurn h p marks) :
    (handed h marks).filter p ++ owed.filter p = (made marks).filter p := by
  induction hu with
  | start => rfl
  | @change marks t u events owed hu hchange ih =>
    rw [handed_change, made_change, List.filter_append, List.filter_append,
      ← ih hturn.of_concat]
    by_cases hnew : ∃ event ∈ events, p event
    · -- Nothing of the kind waits, for all of it was handed on.
      have hcount : (handed h marks).countP p = (made marks).countP p :=
        hturn marks events [] rfl hnew
      have hall := hu.perm.countP_eq p
      rw [List.countP_append, List.countP_eq_length_filter (l := owed)] at hall
      have hnone : owed.filter p = [] := List.eq_nil_of_length_eq_zero (by omega)
      simp [hnone]
    · have hnone : events.filter p = [] :=
        List.filter_eq_nil_iff.mpr fun event hmem hp => hnew ⟨event, hmem, hp⟩
      simp [hnone]
  | hand hu ih =>
    rw [handed_hand, made_handed, ← ih hturn.of_concat, ← List.filter_append,
      ← List.filter_append, List.append_assoc]
    rfl
  | pass hu hne ih =>
    rw [handed_pass hne, made_handed]
    exact ih hturn.of_concat

theorem inTurn_of_lone (hu : Unfolds h s marks t owed)
    (hlone : marks.countP (·.events.any p) ≤ 1) : InTurn h p marks := by
  induction hu with
  | start => exact fun before events after hmarks => by simp at hmarks
  | @change marks t u events owed hu hchange ih =>
    rw [List.countP_append] at hlone
    refine (ih (by omega)).concat fun hnew => ?_
    -- No change before this one made any, so there was nothing to hand on.
    have hone : [Mark.made events].countP (·.events.any p) = 1 := by
      exact List.countP_singleton.trans (if_pos hnew)
    have hearlier : marks.countP (·.events.any p) = 0 := by omega
    have hnone : (made marks).countP p = 0 := by
      rw [List.countP_eq_zero] at hearlier ⊢
      intro event hmem hp
      obtain ⟨mark, hmark, hevent⟩ := List.mem_flatMap.mp hmem
      exact hearlier mark hmark (List.any_eq_true.mpr ⟨event, hevent, hp⟩)
    have hall := hu.perm.countP_eq p
    rw [List.countP_append] at hall
    omega
  | hand hu ih =>
    rw [List.countP_append] at hlone
    exact (ih (by omega)).concat nofun
  | pass hu hne ih =>
    rw [List.countP_append] at hlone
    exact (ih (by omega)).concat nofun

/-! ## The store -/

theorem indexed (hu : Unfolds h s marks t owed) (hs : s.Indexed) : t.Indexed := by
  induction hu with
  | start => exact hs
  | change hu hturn ih => exact ih.turn hturn
  | hand hu ih => exact ih
  | pass hu hne ih => exact ih

/-- The payload under an id is as the last change has it. -/
theorem payload_made (hu : Unfolds h s marks t owed) (hs : s.Indexed) :
    t.payload? x = Event.lastWord x (made marks) (s.payload? x) := by
  induction hu with
  | start => rfl
  | change hu hturn ih =>
    rw [(hu.indexed hs).payload_turn hturn, made_change, Event.lastWord_append, ih]
  | hand hu ih => rwa [made_handed]
  | pass hu hne ih => rwa [made_handed]

/-- If the events about an id take effect in turn, the payload is as the event has it that the
listener was handed last. -/
theorem payload_handed (hu : Unfolds h s marks t []) (hs : s.Indexed)
    (hturn : InTurn h (Event.concerns x) marks) :
    t.payload? x = Event.lastWord x (handed h marks) (s.payload? x) := by
  have horder := hu.filter_eq hturn
  rw [List.filter_nil, List.append_nil] at horder
  rw [hu.payload_made hs, ← Event.lastWord_filter, ← horder, Event.lastWord_filter]

end Unfolds

/-! ## Messages -/

/-- What a message of one update or one removal says of an id. -/
def Message.verdict? (x : Id) : Message → Option (Option Payload)
  | valueChanged [.set value] => if value.id = x then some (some value.payload) else none
  | valueChanged [.removeKey container key] =>
    if x.startsWith (container.child key) then some none else none
  | valueRemoved [id] _ => if id = x then some none else none
  | _ => none

namespace Event

variable {x : Id} {event : Event} {events : List Event} {message : Message}
  {before : Option Payload}

theorem verdict?_message (h : event.message? = some message) :
    message.verdict? x = event.verdict? x := by
  have hvalue {value : Value} {origin : Origin} (h : (if origin = .remote then none
      else (Update.ofValue? value).map fun update => .valueChanged [update]) = some message) :
      message = .valueChanged [.set value] := by
    split at h
    · contradiction
    · unfold Update.ofValue? at h
      split at h
      · contradiction
      · exact (Option.some.inj h).symm
  have hkey {update : Update} {origin : Origin} (h : (if origin = .remote then none
      else (some update).map fun update => .valueChanged [update]) = some message) :
      message = .valueChanged [update] := by
    split at h
    · contradiction
    · exact (Option.some.inj h).symm
  cases event with
  | added value origin => rw [hvalue h]; rfl
  | changed value origin => rw [hvalue h]; rfl
  | removed id token origin => rw [← Option.some.inj h]; rfl
  | keyAdded container key origin => rw [hkey h]; rfl
  | keyRemoved container key origin => rw [hkey h]; rfl

theorem exists_last (hlast : (events.filter (concerns x)).getLast? = some event) :
    ∃ earlier verdict, events.filter (concerns x) = earlier ++ [event] ∧
      event.verdict? x = some verdict := by
  obtain ⟨earlier, hevents⟩ := List.getLast?_eq_some_iff.mp hlast
  have hmem : event ∈ events.filter (concerns x) := by simp [hevents]
  obtain ⟨verdict, hverdict⟩ := Option.isSome_iff_exists.mp (List.mem_filter.mp hmem).2
  exact ⟨earlier, verdict, hevents, hverdict⟩

theorem lastWord_of_last (hlast : (events.filter (concerns x)).getLast? = some event) :
    event.verdict? x = some (lastWord x events before) := by
  obtain ⟨earlier, verdict, hevents, hverdict⟩ := exists_last hlast
  rw [← lastWord_filter, hevents, lastWord_append, lastWord_cons, hverdict]
  rfl

/-- If the last event about an id makes a message, no later message is about the id. -/
theorem verdict?_last (hlast : (events.filter (concerns x)).getLast? = some event)
    (hmessage : event.message? = some message) :
    ((events.filterMap message?).filterMap (·.verdict? x)).getLast? = event.verdict? x := by
  obtain ⟨earlier, verdict, hevents, hverdict⟩ := exists_last hlast
  have hsame : (events.filterMap message?).filterMap (·.verdict? x) =
      (events.filter (concerns x)).filterMap fun e => e.message?.bind (·.verdict? x) := by
    rw [List.filterMap_filterMap, List.filterMap_filter]
    congr 1
    funext e
    split
    · rfl
    · rename_i hconcerns
      cases he : e.message? with
      | none => rfl
      | some m =>
        have hnone : e.verdict? x = none := by simpa [concerns] using hconcerns
        exact (verdict?_message he).trans hnone
  have hlastVerdict : event.message?.bind (·.verdict? x) = some verdict := by
    rw [hmessage, Option.bind_some, verdict?_message hmessage, hverdict]
  rw [hsame, hevents, List.filterMap_append, List.filterMap_cons, hlastVerdict, hverdict]
  simp

end Event

end ValueTree
