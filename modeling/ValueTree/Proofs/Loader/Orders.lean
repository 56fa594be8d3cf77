import Mathlib.Algebra.GroupWithZero.Nat
import Mathlib.Algebra.Order.BigOperators.Group.List
import Mathlib.Algebra.Order.Group.Nat
import Mathlib.Data.List.Infix
import ValueTree.Loader
import ValueTree.Proofs.Payload.Repeat
import ValueTree.Proofs.Store.Declaring

/-!
# Orders to a loader

What a loader has been told stands in two values of its store, and what a change does to them can be
read off the events that tell of it. A loader takes values away only together with a key of a
container above them, and never adds a key. So the keys on the way to its root count how often its
orders may still vanish.
-/

namespace ValueTree

namespace LoaderAction

theorem ofCode?_eq_some {code : Int64} {a : LoaderAction} :
    ofCode? code = some a ↔ code = a.code := by
  constructor
  · intro h
    obtain ⟨item, hfind, rfl⟩ := Option.map_eq_some_iff.mp h
    have hcode : item.1.code = code := by simpa using List.find?_some hfind
    exact hcode.symm
  · rintro rfl
    cases a <;> decide

end LoaderAction

namespace Store

theorem removeKey_cases (s : Store) (id : Id) (key : String) (origin : Origin) :
    let o := s.removeKey id key origin
    o.events = [] ∨ o.events = [.keyRemoved id key origin] ∧ key ∈ s.keysAt id := by
  unfold removeKey
  split
  · exact Or.inl rfl
  · split
    · exact Or.inl rfl
    · rename_i node hnode
      unfold removeKeyAt
      split
      · exact Or.inl rfl
      · split
        · exact Or.inl rfl
        · rename_i hkey
          exact Or.inr ⟨rfl, keysAt_of_node? hnode ▸ Decidable.not_not.mp hkey⟩

end Store

namespace Loader

variable {l : Loader} {s t : Store} {id x : Id} {event : Event} {events : List Event}
  {payload : Payload} {access : Access} {origin : Origin} {key : String}

/-! ## Control values -/

/-- How many keys the containers have that the root of a loader lies in, or that it is. -/
def anchors (l : Loader) (s : Store) : Nat :=
  (l.root.segments.inits.map fun place => (s.keysAt ⟨place⟩).length).sum

/-- The store has the same orders for a loader, and no more anchors. -/
structure Spared (l : Loader) (s t : Store) : Prop where
  action : t.payload? l.actionId = s.payload? l.actionId
  file : t.payload? l.fileId = s.payload? l.fileId
  anchors : l.anchors t ≤ l.anchors s

theorem actionId_ne_fileId (l : Loader) : l.actionId ≠ l.fileId := by
  simp [actionId, fileId]

/-- The action comes before the file. -/
theorem compare_orders (l : Loader) : compare l.fileId l.actionId = .gt := by
  have hsame (before : List String) :
      List.compareLex compare (before ++ ["file"]) (before ++ ["action"]) = .gt := by
    induction before with
    | nil => decide
    | cons x rest ih =>
      rw [List.cons_append, List.cons_append, List.compareLex_cons_cons,
        Std.ReflOrd.compare_self (a := x)]
      exact ih
  exact hsame l.root.segments

theorem statusId_ne (l : Loader) : l.statusId ≠ l.actionId ∧ l.statusId ≠ l.fileId := by
  simp [statusId, actionId, fileId]

theorem isOrder_iff : l.isOrder event = true ↔ ∃ value origin,
    (event = .added value origin ∨ event = .changed value origin) ∧
      (value.id = l.actionId ∨ value.id = l.fileId) := by
  cases event <;> simp [isOrder]

theorem action_eq : l.action s =
    match (s.payload? l.actionId).bind Payload.enum? with
    | none => .error (.store (.notFound l.actionId))
    | some e =>
      match LoaderAction.ofCode? e.value with
      | some action => .ok action
      | none => .error (.unknownAction e.value) := by
  rw [Store.payload?, Option.bind_map]
  rfl

theorem action_congr (h : t.payload? l.actionId = s.payload? l.actionId) :
    l.action t = l.action s := by
  rw [action_eq, action_eq, h]

theorem action_eq_ok {a : LoaderAction} : l.action s = .ok a ↔
    ∃ e, s.payload? l.actionId = some (.enum e) ∧ e.value = a.code := by
  rw [action_eq]
  cases hpayload : s.payload? l.actionId with
  | none => simp
  | some p =>
    cases p with
    | enum e =>
      cases hcode : LoaderAction.ofCode? e.value with
      | none =>
        have hne : e.value ≠ a.code := fun h => by simp [LoaderAction.ofCode?_eq_some.mpr h] at hcode
        simp [Payload.enum?, hcode, hne]
      | some found => simp [Payload.enum?, hcode, ← LoaderAction.ofCode?_eq_some]
    | _ => simp [Payload.enum?]

theorem file_def : l.file s = ((s.payload? l.fileId).bind Payload.text?).getD "" := by
  simp only [file, Store.payload?, Option.bind_map, Function.comp_def]

theorem file_congr (h : t.payload? l.fileId = s.payload? l.fileId) : l.file t = l.file s := by
  rw [file_def, file_def, h]

theorem file_eq {path : String} (hpath : path ≠ "") :
    l.file s = path ↔ s.payload? l.fileId = some (.text path) := by
  rw [file_def]
  cases s.payload? l.fileId with
  | none => simp [hpath.symm]
  | some p => cases p <;> simp [Payload.text?, hpath.symm]

/-! ## What changes do to them -/

theorem keysAt_turn (h : s.Indexed) (ht : s.Turn t events)
    (hevents : ∀ container key origin, .keyAdded container key origin ∉ events) :
    (t.keysAt x).length ≤ (s.keysAt x).length := by
  have hnone : events.filterMap (Event.keyAdded? x) = [] := by
    refine List.filterMap_eq_nil_iff.mpr fun event hmem => ?_
    cases event with
    | keyAdded container key origin => exact absurd hmem (hevents container key origin)
    | _ => rfl
  have hsub := h.keysAt_turn ht x
  rw [hnone, List.append_nil] at hsub
  exact hsub.length_le

theorem anchors_turn (h : s.Indexed) (ht : s.Turn t events)
    (hevents : ∀ container key origin, .keyAdded container key origin ∉ events) :
    l.anchors t ≤ l.anchors s :=
  List.sum_le_sum fun _ _ => keysAt_turn h ht hevents

theorem anchors_declare (h : s.Indexed) :
    l.anchors (s.declare id payload access).store ≤ l.anchors s := by
  refine anchors_turn h (.declare id payload access) fun c k o hmem => ?_
  obtain ⟨value, hevent | hevent⟩ := Store.mem_events_declare hmem <;> cases hevent

/-- Where nothing is said of the orders, they are the same. -/
theorem spared_turn (h : s.Indexed) (ht : s.Turn t events)
    (hkeys : ∀ container key origin, .keyAdded container key origin ∉ events)
    (hevents : ∀ event ∈ events,
      event.verdict? l.actionId = none ∧ event.verdict? l.fileId = none) : l.Spared s t where
  action := (h.payload_turn ht _).trans
    (Event.lastWord_unconcerned fun event hmem => (hevents event hmem).1)
  file := (h.payload_turn ht _).trans
    (Event.lastWord_unconcerned fun event hmem => (hevents event hmem).2)
  anchors := anchors_turn h ht hkeys

theorem spared_silent (h : s.Indexed) (ht : s.Turn t []) : l.Spared s t :=
  spared_turn h ht nofun nofun

theorem Spared.refl : l.Spared s s := ⟨rfl, rfl, le_rfl⟩

/-- A declaration that is told of leaves the other payloads alone. -/
theorem payload?_announced {value : Value} (h : s.Indexed)
    (hvalue : s.Announced id payload value (s.declare id payload access).events) :
    (s.declare id payload access).store.payload? x =
      if id = x then some value.payload else s.payload? x := by
  rw [h.payload_turn (.declare id payload access)]
  obtain ⟨rfl, hevents | hevents, -⟩ := hvalue <;>
  · rw [hevents, Event.lastWord_cons, Event.lastWord_nil]
    simp only [Event.verdict?]
    split <;> rfl

theorem spared_announced {value : Value} (h : s.Indexed)
    (hvalue : s.Announced id payload value (s.declare id payload access).events)
    (haction : id ≠ l.actionId) (hfile : id ≠ l.fileId) :
    l.Spared s (s.declare id payload access).store where
  action := by rw [payload?_announced h hvalue, if_neg haction]
  file := by rw [payload?_announced h hvalue, if_neg hfile]
  anchors := anchors_declare h

/-- What is removed may be an order. -/
theorem orders_remove (h : s.Indexed) :
    ((s.remove id origin).store.payload? x = s.payload? x ∨
      (s.remove id origin).store.payload? x = none) ∧
      l.anchors (s.remove id origin).store ≤ l.anchors s := by
  constructor
  · rw [h.payload_turn (.remove id origin)]
    refine Event.lastWord_gone fun event hmem => ?_
    obtain ⟨r, rfl⟩ := Store.mem_events_remove hmem
    simp only [Event.verdict?]
    split <;> simp
  · refine anchors_turn h (.remove id origin) fun c k o hmem => ?_
    obtain ⟨r, hevent⟩ := Store.mem_events_remove hmem
    cases hevent

/-- Whatever takes away something right below the root of a loader lies on the way to it. -/
theorem mem_inits_of_startsWith {segment : String}
    (h : (l.root.child segment).startsWith (id.child key) = true) :
    id.segments ∈ l.root.segments.inits := by
  rw [List.mem_inits]
  rcases Id.child_startsWith_iff.mp h with hsame | habove
  · rw [(Id.child_inj.mp hsame).1]
  · exact (List.prefix_append _ _).trans (Id.startsWith_iff.mp habove)

theorem keysAt_removeKey (h : s.Indexed) (hkey : key ∈ s.keysAt id)
    (hevents : (s.removeKey id key origin).events = [.keyRemoved id key origin]) :
    ((s.removeKey id key origin).store.keysAt id).length < (s.keysAt id).length := by
  have hlogged := h.logged (.removeKey id key origin)
  rw [hevents] at hlogged
  rw [Store.keysAt_eq] at hkey
  rw [Store.keysAt_eq, Store.keysAt_eq, ← hlogged]
  simp only [Event.keysIn, List.foldl_cons, List.foldl_nil, Event.amend, Id.not_startsWith_child,
    Bool.false_eq_true, if_false, if_true] at hkey ⊢
  cases hcontent : s.content? id with
  | none => simp [hcontent] at hkey
  | some c =>
    have hmem : key ∈ c.keys := by simpa [hcontent] using hkey
    have hpos := List.length_pos_of_mem hmem
    simp only [Option.map_some, Option.getD_some, List.length_erase_of_mem hmem]
    omega

/-- A key that takes an order along is one of the anchors. -/
theorem orders_removeKey (h : s.Indexed) :
    l.Spared s (s.removeKey id key origin).store ∨
      l.anchors (s.removeKey id key origin).store < l.anchors s := by
  have ht := Store.Turn.removeKey (s := s) id key origin
  rcases s.removeKey_cases id key origin with hevents | ⟨hevents, hkey⟩
  · rw [hevents] at ht
    exact Or.inl (spared_silent h ht)
  · by_cases hplace : id.segments ∈ l.root.segments.inits
    · rw [hevents] at ht
      exact Or.inr (List.sum_lt_sum _ _ (fun _ _ => keysAt_turn h ht (by simp))
        ⟨_, hplace, keysAt_removeKey h hkey hevents⟩)
    · rw [hevents] at ht
      refine Or.inl (spared_turn h ht (by simp) fun event hmem => ?_)
      obtain rfl := List.mem_singleton.mp hmem
      have hout (segment : String) : (l.root.child segment).startsWith (id.child key) = false :=
        Bool.eq_false_iff.mpr (mt mem_inits_of_startsWith hplace)
      exact ⟨if_neg (Bool.eq_false_iff.mp (hout "action")),
        if_neg (Bool.eq_false_iff.mp (hout "file"))⟩

end Loader

end ValueTree
