import ValueTree.Proofs.Store.Log
import ValueTree.Proofs.Sync.Filtering
import ValueTree.Sync.Outbound

/-!
# No echo

What the authority says is not said back to it. Removals are the exception: whatever goes because
the authority says so is told of once more, each value by itself.
-/

namespace ValueTree

/-! ## What goes -/

namespace Store

/-- The ids of a store that are not in the other one, the last one first. -/
def gone (s t : Store) : List Id := (s.ids.filter (!t.has ·)).reverse

/-- One removal that the authority asks for, with its token if one came along. -/
def dismiss (s : Store) : Id × Option Token → Outcome Bool
  | (id, some token) => s.removeWithToken id token .remote
  | (id, none) => s.remove id .remote

def dismissAll (s : Store) (removals : List (Id × Option Token)) : Store :=
  removals.foldl (fun s removal => (s.dismiss removal).store) s

/-- What goes with each of some removals. -/
def erasures (s : Store) : List (Id × Option Token) → List (List Id)
  | [] => []
  | removal :: rest =>
    s.gone (s.dismiss removal).store :: (s.dismiss removal).store.erasures rest

end Store

/-- The removals that a message asks for; a result may say that values are not there. -/
def Message.removals : Message → List (Id × Option Token)
  | .valueRemoved ids tokens => Receiver.pairTokens ids tokens
  | .result _ .notFound values => values.map fun value => (value.id, none)
  | _ => []

/-- What goes with each removal that some messages ask for. -/
def Mirror.erasures (r : Mirror) : List Message → List (List Id)
  | [] => []
  | message :: rest =>
    r.quiet.store.erasures message.removals ++ (r.receive [message]).erasures rest

/-- The events that messages bring about. -/
def Mirror.news (r : Mirror) (messages : List Message) : List Event :=
  (r.receive messages).quiet.events.drop r.quiet.events.length

/-! ## Events of the other end -/

/-- All events come from the other end, and these ids are what they have to tell it. -/
structure Echoes (events : List Event) (gone : List Id) : Prop where
  remote : ∀ event ∈ events, event.origin = .remote
  messages : events.filterMap Event.message? = gone.map fun id => .valueRemoved [id] [id.token]

/-- It comes from the other end, and does not tell of a removal. -/
structure Event.Silent (event : Event) : Prop where
  remote : event.origin = .remote
  kept : event.removed? = none

theorem Event.Silent.message? {event : Event} (h : event.Silent) : event.message? = none := by
  cases event with
  | removed => cases h.kept
  | _ => exact if_pos h.remote

namespace Echoes

theorem nil : Echoes [] [] := ⟨nofun, rfl⟩

theorem append {events events' : List Event} {gone gone' : List Id} (h : Echoes events gone)
    (h' : Echoes events' gone') : Echoes (events ++ events') (gone ++ gone') where
  remote event hevent := (List.mem_append.mp hevent).elim (h.remote event) (h'.remote event)
  messages := by rw [List.filterMap_append, List.map_append, h.messages, h'.messages]

theorem silent {events : List Event} (h : ∀ event ∈ events, event.Silent) : Echoes events [] where
  remote event hevent := (h event hevent).remote
  messages := List.filterMap_eq_nil_iff.mpr fun event hevent => (h event hevent).message?

end Echoes

namespace Store

variable {s t : Store} {id x : Id} {node : Node} {payload : Payload} {access : Access}
  {origin : Origin} {key : String} {event : Event}

/-! ## Silent events -/

theorem silent_write (h : event ∈ (s.write id payload access .remote).events) : event.Silent := by
  obtain ⟨value, rfl | rfl⟩ := mem_events_write h <;> exact ⟨rfl, rfl⟩

theorem silent_addKey (h : event ∈ (s.addKey id key .remote).events) : event.Silent := by
  obtain rfl | ⟨value, rfl⟩ := mem_events_addKey h <;> exact ⟨rfl, rfl⟩

theorem silent_removeKey (h : event ∈ (s.removeKey id key .remote).events) : event.Silent := by
  rw [mem_events_removeKey h]
  exact ⟨rfl, rfl⟩

/-! ## Removals -/

namespace Indexed

theorem gone_self (h : s.Indexed) : s.gone s = [] := by
  rw [gone, List.reverse_eq_nil_iff, List.filter_eq_nil_iff]
  intro x hx
  simp [h.mem_ids.mp hx]

theorem mem_gone (h : s.Indexed) : x ∈ s.gone t ↔ s.has x = true ∧ t.has x = false := by
  rw [gone, List.mem_reverse, List.mem_filter, h.mem_ids, Bool.not_eq_true']

theorem nodup_gone (h : s.Indexed) : (s.gone t).Nodup := by
  rw [gone, h.ids_eq, (List.reverse_perm _).nodup_iff]
  exact s.nodup_index.filter _

/-- What goes is told of before what it lies below. -/
theorem pairwise_gone (h : s.Indexed) :
    (s.gone t).Pairwise fun x y => y.startsWith x = false := by
  rw [gone, h.ids_eq, List.pairwise_reverse]
  exact s.pairwise_index.filter _

theorem has_remove (h : s.Indexed) (hhas : s.has id = true) :
    (s.remove id origin).store.has x = (s.has x && !x.startsWith id) := by
  simp only [remove, hhas, if_true, has_eq_isSome, content?_eraseAll, content?_unlink,
    List.mem_reverse, h.mem_subtree_iff]
  rw [← has_eq_isSome]
  cases hx : s.has x with
  | false => simp [content?_eq_none.mpr hx]
  | true =>
    rw [has_eq_isSome] at hx
    cases x.startsWith id <;> simp [hx]

theorem gone_remove (h : s.Indexed) (hhas : s.has id = true) :
    s.gone (s.remove id origin).store = (s.subtree id).reverse := by
  rw [gone, subtree_eq_filter, h.ids_eq]
  congr 1
  apply List.filter_congr
  intro x hx
  have : s.has x = true := (h.index_iff x).mp (Std.ExtTreeSet.mem_toList.mp hx)
  rw [h.has_remove hhas, this, Bool.true_and, Bool.not_not]

theorem echoes_remove (h : s.Indexed) :
    Echoes (s.remove id .remote).events (s.gone (s.remove id .remote).store) := by
  cases hhas : s.has id with
  | false =>
    rw [remove_of_not_has hhas, unchanged, h.gone_self]
    exact .nil
  | true =>
    rw [h.gone_remove hhas, h.events_remove hhas]
    constructor
    · intro event hevent
      obtain ⟨x, -, rfl⟩ := List.mem_map.mp hevent
      rfl
    · rw [List.filterMap_map, ← List.filterMap_eq_map]
      rfl

theorem echoes_dismiss (h : s.Indexed) (removal : Id × Option Token) :
    Echoes (s.dismiss removal).events (s.gone (s.dismiss removal).store) := by
  obtain ⟨id, token?⟩ := removal
  cases token? with
  | none => exact h.echoes_remove
  | some token =>
    simp only [Store.dismiss, Store.removeWithToken]
    split
    · exact h.echoes_remove
    · rw [Store.failed, h.gone_self]
      exact .nil

theorem dismiss (h : s.Indexed) (removal : Id × Option Token) :
    (s.dismiss removal).store.Indexed := by
  obtain ⟨id, token?⟩ := removal
  cases token? with
  | none => exact h.turn (.remove id .remote)
  | some token => exact h.turn (.removeWithToken id token .remote)

/-- Nothing comes into being by a removal. -/
theorem has_of_dismiss (h : s.Indexed) {removal : Id × Option Token}
    (hx : (s.dismiss removal).store.has x = true) : s.has x = true := by
  have hremove (id : Id) (hx : (s.remove id .remote).store.has x = true) : s.has x = true := by
    cases hhas : s.has id with
    | false => rwa [remove_of_not_has hhas] at hx
    | true =>
      rw [h.has_remove hhas, Bool.and_eq_true] at hx
      exact hx.1
  obtain ⟨id, token?⟩ := removal
  cases token? with
  | none => exact hremove id hx
  | some token =>
    simp only [Store.dismiss, Store.removeWithToken] at hx
    split at hx
    · exact hremove id hx
    · exact hx

theorem has_of_dismissAll (h : s.Indexed) {removals : List (Id × Option Token)}
    (hx : (s.dismissAll removals).has x = true) : s.has x = true := by
  induction removals generalizing s with
  | nil => exact hx
  | cons removal rest ih => exact h.has_of_dismiss (ih (h.dismiss removal) hx)

theorem mem_erasures (h : s.Indexed) {removals : List (Id × Option Token)} :
    x ∈ (s.erasures removals).flatten ↔
      s.has x = true ∧ (s.dismissAll removals).has x = false := by
  induction removals generalizing s with
  | nil => simp [erasures, dismissAll]
  | cons removal rest ih =>
    have hnext := h.dismiss removal
    have hall : s.dismissAll (removal :: rest) = (s.dismiss removal).store.dismissAll rest := rfl
    rw [erasures, List.flatten_cons, List.mem_append, h.mem_gone, ih hnext, hall]
    cases hx : (s.dismiss removal).store.has x with
    | true => simp [h.has_of_dismiss hx]
    | false =>
      have : ((s.dismiss removal).store.dismissAll rest).has x = false := by
        rw [Bool.eq_false_iff]
        intro hlast
        simp [hnext.has_of_dismissAll hlast] at hx
      simp [this]

theorem nodup_erasures (h : s.Indexed) (removals : List (Id × Option Token)) :
    (s.erasures removals).flatten.Nodup := by
  induction removals generalizing s with
  | nil => exact List.nodup_nil
  | cons removal rest ih =>
    have hnext := h.dismiss removal
    rw [erasures, List.flatten_cons, List.nodup_append]
    refine ⟨h.nodup_gone, ih hnext, ?_⟩
    rintro x hx y hy rfl
    -- What goes first is not there any more to go once more.
    have hgone := (h.mem_gone.mp hx).2
    have hthere := (hnext.mem_erasures.mp hy).1
    simp [hgone] at hthere

/-- However many removals there are, each value that goes does so once. -/
theorem erasures_perm (h : s.Indexed) (removals : List (Id × Option Token)) :
    (s.erasures removals).flatten.Perm (s.gone (s.dismissAll removals)) := by
  apply (List.perm_ext_iff_of_nodup (h.nodup_erasures removals) h.nodup_gone).mpr
  intro x
  rw [h.mem_erasures, h.mem_gone]

theorem pairwise_erasures (h : s.Indexed) {removals : List (Id × Option Token)} {ids : List Id}
    (hids : ids ∈ s.erasures removals) : ids.Pairwise fun x y => y.startsWith x = false := by
  induction removals generalizing s with
  | nil => cases hids
  | cons removal rest ih =>
    rcases List.mem_cons.mp hids with rfl | hids
    · exact h.pairwise_gone
    · exact ih (h.dismiss removal) hids

end Indexed

end Store

/-! ## Handling -/

namespace Mirror

variable {r r' r'' : Mirror} {gone gone' : List Id}

/-- The store stays in order, and the events tell the other end of these ids. -/
structure Passes (r r' : Mirror) (gone : List Id) : Prop where
  indexed : r'.quiet.store.Indexed
  events : ∃ new, r'.quiet.events = r.quiet.events ++ new ∧ Echoes new gone

namespace Passes

theorem refl (h : r.quiet.store.Indexed) : r.Passes r [] :=
  ⟨h, [], (List.append_nil _).symm, .nil⟩

theorem trans (h : r.Passes r' gone) (h' : r'.Passes r'' gone') :
    r.Passes r'' (gone ++ gone') := by
  obtain ⟨new, hnew, hechoes⟩ := h.events
  obtain ⟨new', hnew', hechoes'⟩ := h'.events
  refine ⟨h'.indexed, new ++ new', ?_, hechoes.append hechoes'⟩
  rw [hnew', hnew, List.append_assoc]

/-- What the results are told of does not matter. -/
theorem answered (h : r.Passes r' gone) (results : List (UInt32 × Bool)) :
    r.Passes { r' with results } gone := ⟨h.indexed, h.events⟩

end Passes

theorem passes_change {α : Type} (step : Store → Outcome α) {outcome : Outcome α}
    (hstep : step r.quiet.store = outcome) (hindexed : outcome.store.Indexed)
    (hechoes : Echoes outcome.events gone) :
    r.Passes ((Host.change step : StateM Mirror (Except StoreError α)) r).2 gone := by
  subst hstep
  exact ⟨hindexed, _, rfl, hechoes⟩

theorem passes_applyValue (h : r.quiet.store.Indexed) (value : Value) :
    r.Passes ((Receiver.applyValue value : StateM Mirror Bool) r).2 [] := by
  rw [applyValue_eq]
  split
  · exact .refl h
  · split
    · exact .refl h
    · exact passes_change (·.setValue value .remote) rfl (h.turn (.write ..))
        (.silent fun _ => Store.silent_write)

theorem passes_applyUpdate (h : r.quiet.store.Indexed) (update : Update) :
    r.Passes ((Receiver.applyUpdate update : StateM Mirror Bool) r).2 [] := by
  cases update with
  | set value => exact passes_applyValue h value
  | addKey container key =>
    exact passes_change (·.addKey container key .remote) rfl (h.turn (.addKey ..))
      (.silent fun _ => Store.silent_addKey)
  | removeKey container key =>
    exact passes_change (·.removeKey container key .remote) rfl (h.turn (.removeKey ..))
      (.silent fun _ => Store.silent_removeKey)

/-- Items that nothing goes with. -/
theorem passes_forM {β : Type} {act : β → StateM Mirror Unit}
    (hact : ∀ {r : Mirror} b, r.quiet.store.Indexed → r.Passes (act b r).2 [])
    (h : r.quiet.store.Indexed) (items : List β) : r.Passes (items.forM act r).2 [] := by
  induction items generalizing r with
  | nil => exact .refl h
  | cons b rest ih => exact (hact b h).trans (ih (hact b h).indexed)

theorem applyRemoval_eq (r : Mirror) (removal : Id × Option Token) :
    ((Receiver.applyRemoval removal.1 removal.2 : StateM Mirror Unit) r).2 =
      ((Host.change (·.dismiss removal) : StateM Mirror (Except StoreError Bool)) r).2 := by
  obtain ⟨id, _ | token⟩ := removal <;> rfl

theorem passes_removals (h : r.quiet.store.Indexed) (removals : List (Id × Option Token)) :
    let after := ((removals.forM fun (id, token?) => Receiver.applyRemoval id token? :
      StateM Mirror Unit) r).2
    r.Passes after (r.quiet.store.erasures removals).flatten ∧
      after.quiet.store = r.quiet.store.dismissAll removals := by
  induction removals generalizing r with
  | nil => exact ⟨.refl h, rfl⟩
  | cons removal rest ih =>
    have hfirst := passes_change (·.dismiss removal) rfl (h.dismiss removal)
      (h.echoes_dismiss removal)
    rw [← applyRemoval_eq] at hfirst
    have hstore : ((Receiver.applyRemoval removal.1 removal.2 : StateM Mirror Unit)
        r).2.quiet.store = (r.quiet.store.dismiss removal).store := by
      rw [applyRemoval_eq]
      rfl
    obtain ⟨hrest, hlast⟩ := ih hfirst.indexed
    rw [hstore] at hrest hlast
    exact ⟨hfirst.trans hrest, hlast⟩

theorem passes_handle (h : r.quiet.store.Indexed) (message : Message) :
    r.Passes (r.receive [message]) (r.quiet.store.erasures message.removals).flatten := by
  cases message with
  | valueChanged updates =>
    exact passes_forM (fun update h => passes_applyUpdate h update) h updates
  | valueRemoved ids tokens => exact (passes_removals h _).1
  | result sequence status values =>
    cases status with
    | success =>
      exact (passes_forM (fun value h => passes_applyValue h value) h values).answered _
    | notFound =>
      have hvalues := (passes_removals h (values.map fun value => (value.id, none))).1
      rw [List.forM_eq_forM, List.forM_map] at hvalues
      exact hvalues.answered _
    | other code => exact (Passes.refl h).answered _
  | _ => exact .refl h

/-- The store after a message that asks for removals is what these leave. -/
theorem store_removals {message : Message} (h : r.quiet.store.Indexed)
    (hremovals : message.removals ≠ []) :
    (r.receive [message]).quiet.store = r.quiet.store.dismissAll message.removals := by
  cases message with
  | valueRemoved ids tokens => exact (passes_removals h _).2
  | result sequence status values =>
    cases status with
    | notFound =>
      have hvalues := (passes_removals h (values.map fun value => (value.id, none))).2
      rw [List.forM_eq_forM, List.forM_map] at hvalues
      exact hvalues
    | success | other => exact absurd rfl hremovals
  | _ => exact absurd rfl hremovals

theorem passes_receive (h : r.quiet.store.Indexed) (messages : List Message) :
    r.Passes (r.receive messages) (r.erasures messages).flatten := by
  induction messages generalizing r with
  | nil => exact .refl h
  | cons message rest ih =>
    have hfirst := passes_handle h message
    have hrest := ih hfirst.indexed
    rw [erasures, List.flatten_append]
    exact hfirst.trans hrest

theorem pairwise_erasures (h : r.quiet.store.Indexed) {messages : List Message} {ids : List Id}
    (hids : ids ∈ r.erasures messages) : ids.Pairwise fun x y => y.startsWith x = false := by
  induction messages generalizing r with
  | nil => cases hids
  | cons message rest ih =>
    rcases List.mem_append.mp hids with hids | hids
    · exact h.pairwise_erasures hids
    · exact ih (passes_handle h message).indexed hids

theorem erasures_eq_nil {messages : List Message}
    (h : ∀ message ∈ messages, message.removals = []) : r.erasures messages = [] := by
  induction messages generalizing r with
  | nil => rfl
  | cons message rest ih =>
    obtain ⟨hfirst, hrest⟩ := List.forall_mem_cons.mp h
    rw [erasures, hfirst, ih hrest]
    rfl

end Mirror

end ValueTree
