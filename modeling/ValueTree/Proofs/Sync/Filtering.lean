import ValueTree.Sync.Inbound

/-!
# The slices of other applications

Whatever the authority says of values in the slices of other applications, a receiver with a filter
ends up as if it had never been said.
-/

namespace ValueTree

/-! ## Ids above an id -/

namespace Id

variable {i a b : Id} {segment : String}

/-- A proper ancestor, and the segment right below it. -/
def Below (i a : Id) (segment : String) : Prop :=
  ∃ rest, i.segments = a.segments ++ segment :: rest

theorem Below.depth_lt (h : i.Below a segment) : a.depth < i.depth := by
  obtain ⟨rest, hsegments⟩ := h
  simp [depth, hsegments]

theorem Below.getElem? (h : i.Below a segment) : i.segments[a.depth]? = some segment := by
  obtain ⟨rest, hsegments⟩ := h
  simp [depth, hsegments]

/-- Of the ancestors of one depth there is only one. -/
theorem Below.eq {other : String} (ha : i.Below a segment) (hb : i.Below b other)
    (hdepth : a.depth = b.depth) : a = b := by
  obtain ⟨rest, hsegments⟩ := ha
  obtain ⟨rest', hsegments'⟩ := hb
  rw [hsegments] at hsegments'
  obtain ⟨a⟩ := a
  obtain ⟨b⟩ := b
  exact congrArg mk (List.append_inj_left hsegments' hdepth)

theorem mem_ancestors : a ∈ i.ancestors ↔ ∃ segment, i.Below a segment := by
  simp only [ancestors, List.mem_map, List.mem_reverse, List.mem_range]
  constructor
  · rintro ⟨n, hn, rfl⟩
    have hdrop := List.drop_eq_getElem_cons (show n < i.segments.length from hn)
    exact ⟨_, _, (List.take_append_drop n i.segments).symm.trans (congrArg _ hdrop)⟩
  · rintro ⟨segment, h⟩
    refine ⟨a.depth, h.depth_lt, ?_⟩
    obtain ⟨rest, hsegments⟩ := h
    obtain ⟨a⟩ := a
    simp [hsegments, depth]

/-- The nearest ancestor comes first. -/
theorem pairwise_ancestors (i : Id) : i.ancestors.Pairwise fun a b => b.depth < a.depth := by
  rw [ancestors, List.pairwise_map, List.pairwise_reverse]
  refine List.pairwise_lt_range.imp_of_mem fun {m n} hm hn hlt => ?_
  have := List.mem_range.mp hn
  simp only [depth] at this
  simp only [depth, List.length_take]
  omega

end Id

/-! ## Foreign ids -/

namespace Filter

variable {f : Filter} {id root : Id}

/-- Right below the longest proper ancestor that is a filtered root stands another name. -/
def Foreign (f : Filter) (id : Id) : Prop :=
  ∃ root ∈ f.roots, ∃ segment, id.Below root segment ∧ segment ≠ f.app ∧
    ∀ other ∈ f.roots, ∀ next, id.Below other next → other.depth ≤ root.depth

theorem root?_eq_some (h : f.root? id = some root) :
    root ∈ f.roots ∧ (∃ segment, id.Below root segment) ∧
      ∀ other ∈ f.roots, ∀ next, id.Below other next → other.depth ≤ root.depth := by
  obtain ⟨hroot, before, after, hancestors, hbefore⟩ := List.find?_eq_some_iff_append.mp h
  refine ⟨by simpa using hroot, Id.mem_ancestors.mp (by simp [hancestors]), ?_⟩
  intro other hother next hbelow
  have hmem : other ∈ id.ancestors := Id.mem_ancestors.mpr ⟨next, hbelow⟩
  have hpairwise := id.pairwise_ancestors
  rw [hancestors] at hmem hpairwise
  rcases List.mem_append.mp hmem with hfront | hback
  · simpa [hother] using hbefore other hfront
  · rcases List.mem_cons.mp hback with rfl | hback
    · exact Nat.le_refl _
    · have hrest := (List.pairwise_append.mp hpairwise).2.1
      exact Nat.le_of_lt ((List.pairwise_cons.mp hrest).1 other hback)

theorem isForeign_iff : f.isForeign id = true ↔ f.Foreign id := by
  unfold isForeign
  cases hroot? : f.root? id with
  | none =>
    refine ⟨nofun, ?_⟩
    rintro ⟨root, hroot, segment, hbelow, -⟩
    have hnone := List.find?_eq_none.mp hroot? root (Id.mem_ancestors.mpr ⟨segment, hbelow⟩)
    simp [hroot] at hnone
  | some nearest =>
    obtain ⟨hnearest, ⟨first, hfirst⟩, hlongest⟩ := root?_eq_some hroot?
    simp only [hfirst.getElem?, ne_eq, Option.some.injEq, decide_not, Bool.not_eq_true',
      decide_eq_false_iff_not]
    constructor
    · intro hname
      exact ⟨nearest, hnearest, first, hfirst, hname, hlongest⟩
    · rintro ⟨root, hroot, segment, hbelow, hname, hmost⟩
      -- Both are the longest, so they are the same.
      have hdepth := Nat.le_antisymm (hlongest root hroot segment hbelow)
        (hmost nearest hnearest first hfirst)
      obtain rfl := hbelow.eq hfirst hdepth
      have hsegment := hbelow.getElem?.symm.trans hfirst.getElem?
      rwa [← Option.some.inj hsegment]

instance : Decidable (f.Foreign id) := decidable_of_iff _ isForeign_iff

/-- The message without what it says of foreign values. -/
def purge (f : Filter) : Message → Message
  | .valueChanged updates => .valueChanged (updates.filter fun
    | .set value => ¬f.Foreign value.id
    | _ => true)
  | .result sequence .success values =>
    .result sequence .success (values.filter fun value => ¬f.Foreign value.id)
  | message => message

end Filter

/-! ## Handling without a trace -/

namespace Mirror

variable {f : Filter}

/-- Nothing is done to the filter. -/
def KeepsFilter {α : Type} (act : StateM Mirror α) : Prop := ∀ r, (act r).2.filter = r.filter

theorem keepsFilter_forM {β : Type} {act : β → StateM Mirror Unit} (h : ∀ b, KeepsFilter (act b))
    (items : List β) : KeepsFilter (items.forM act) := by
  intro r
  induction items generalizing r with
  | nil => rfl
  | cons b rest ih => exact (ih (act b r).2).trans (h b r)

theorem applyValue_eq (value : Value) (r : Mirror) :
    (Receiver.applyValue value : StateM Mirror Bool) r =
      (if r.filter.hides r.quiet.store value.id then pure false
      else if ((r.quiet.store.kind? value.id).map Kind.isStructural).getD false then pure true
      else do pure (Receiver.went (← Host.setValue value .remote)) : StateM Mirror Bool) r := rfl

theorem keepsFilter_applyValue (value : Value) :
    KeepsFilter (Receiver.applyValue value : StateM Mirror Bool) := by
  intro r
  rw [applyValue_eq]
  split
  · rfl
  · split <;> rfl

theorem keepsFilter_applyUpdate (update : Update) :
    KeepsFilter (Receiver.applyUpdate update : StateM Mirror Bool) := by
  cases update with
  | set value => exact keepsFilter_applyValue value
  | addKey container key => exact fun _ => rfl
  | removeKey container key => exact fun _ => rfl

theorem keepsFilter_applyRemoval (id : Id) (token? : Option Token) :
    KeepsFilter (Receiver.applyRemoval id token? : StateM Mirror Unit) := by
  cases token? <;> exact fun _ => rfl

theorem keepsFilter_applyResult (status : Status) (values : List Value) :
    KeepsFilter (Receiver.applyResult status values : StateM Mirror Unit) := by
  cases status with
  | success => exact keepsFilter_forM (fun value => keepsFilter_applyValue value) values
  | notFound => exact keepsFilter_forM (fun _ _ => rfl) values
  | other code => exact fun _ => rfl

theorem keepsFilter_handle (message : Message) :
    KeepsFilter (Receiver.handle message : StateM Mirror Unit) := by
  cases message with
  | valueChanged updates =>
    exact keepsFilter_forM (fun update => keepsFilter_applyUpdate update) updates
  | valueRemoved ids tokens =>
    exact keepsFilter_forM (fun (id, token?) => keepsFilter_applyRemoval id token?) _
  | result sequence status values => exact keepsFilter_applyResult status values
  | _ => exact fun _ => rfl

/-- A foreign value is passed over, whatever there is in the store. -/
theorem applyValue_foreign {value : Value} {r : Mirror} (hroots : r.filter.roots ≠ [])
    (h : r.filter.Foreign value.id) :
    (Receiver.applyValue value : StateM Mirror Bool) r = (false, r) := by
  have hhides : r.filter.hides r.quiet.store value.id = true := by
    simp [Filter.hides, hroots, Filter.isForeign_iff.mpr h]
  rw [applyValue_eq, if_pos hhides]
  rfl

/-- Items that come to nothing may be left out. -/
theorem forM_filter {β : Type} {act : β → StateM Mirror Unit} {keep : β → Bool}
    (hkeeps : ∀ b, KeepsFilter (act b))
    (hskip : ∀ b r, r.filter = f → keep b = false → act b r = ((), r)) (items : List β) (r : Mirror)
    (hr : r.filter = f) : (items.filter keep).forM act r = items.forM act r := by
  induction items generalizing r with
  | nil => rfl
  | cons b rest ih =>
    have hcons : (b :: rest).forM act r = rest.forM act (act b r).2 := rfl
    rw [hcons, ← ih (act b r).2 ((hkeeps b r).trans hr)]
    cases hkeep : keep b with
    | true => rw [List.filter_cons_of_pos hkeep]; rfl
    | false => rw [List.filter_cons_of_neg (by simp [hkeep]), hskip b r hr hkeep]

theorem handle_purge (hroots : f.roots ≠ []) (message : Message) (r : Mirror) (hr : r.filter = f) :
    (Receiver.handle (f.purge message) : StateM Mirror Unit) r =
      (Receiver.handle message : StateM Mirror Unit) r := by
  cases message with
  | valueChanged updates =>
    refine forM_filter (fun update => keepsFilter_applyUpdate update) ?_ updates r hr
    rintro update r rfl hforeign
    cases update with
    | set value =>
      have hpassed := applyValue_foreign hroots (by simpa using hforeign)
      exact congrArg (fun passed => ((), passed.2)) hpassed
    | addKey container key => simp at hforeign
    | removeKey container key => simp at hforeign
  | result sequence status values =>
    cases status with
    | success =>
      have happlied :
          (Receiver.applyResult .success (values.filter fun v => ¬f.Foreign v.id) :
            StateM Mirror Unit) r =
          (Receiver.applyResult .success values : StateM Mirror Unit) r := by
        refine forM_filter (fun value => keepsFilter_applyValue value) ?_ values r hr
        rintro value r rfl hforeign
        have hpassed := applyValue_foreign hroots (by simpa using hforeign)
        exact congrArg (fun passed => ((), passed.2)) hpassed
      -- The answer comes when the values are in place.
      exact congrArg
        (fun applied => (Receiver.answered sequence true : StateM Mirror Unit) applied.2) happlied
    | notFound => rfl
    | other code => rfl
  | _ => rfl

/-- What is said of foreign values changes nothing: not the store, not the events, and not the
results that are told of. -/
theorem receive_purge {r : Mirror} (hroots : r.filter.roots ≠ []) (messages : List Message) :
    r.receive (messages.map r.filter.purge) = r.receive messages := by
  generalize hf : r.filter = f at hroots
  induction messages generalizing r with
  | nil => rfl
  | cons message rest ih =>
    have hkept := (keepsFilter_handle message r).trans hf
    simp only [receive, List.map_cons, List.foldl_cons, StateT.run] at ih ⊢
    rw [handle_purge hroots message r hf]
    exact ih hkept

/-- Two applications below `log`: what `B` says of itself is lost on `A`, also when the directive
that makes room for it is not. -/
theorem receive_purge_two :
    let filter : Filter := { app := "A", roots := [⟨["log"]⟩] }
    let messages : List Message := [
      .valueChanged [.addKey ⟨["log"]⟩ "B", .set ⟨⟨["log", "B", "level"]⟩, .readWrite, .text "x"⟩,
        .set ⟨⟨["log", "A", "level"]⟩, .readWrite, .text "y"⟩],
      .result 7 .success [⟨⟨["log", "B"]⟩, .readWrite, .bool true⟩,
        ⟨⟨["log", "A", "n"]⟩, .readOnly, .multi [1]⟩]]
    let mirror : Mirror := { filter }
    filter.roots ≠ [] ∧
      messages.map filter.purge = [
        .valueChanged [.addKey ⟨["log"]⟩ "B",
          .set ⟨⟨["log", "A", "level"]⟩, .readWrite, .text "y"⟩],
        .result 7 .success [⟨⟨["log", "A", "n"]⟩, .readOnly, .multi [1]⟩]] ∧
      mirror.receive (messages.map filter.purge) = mirror.receive messages ∧
      (mirror.receive messages).quiet.store.ids =
        [⟨["log"]⟩, ⟨["log", "A", "level"]⟩, ⟨["log", "A", "n"]⟩, ⟨["log", "B"]⟩] := by
  intro filter messages mirror
  have hroots : mirror.filter.roots ≠ [] := by decide
  exact ⟨hroots, by decide +kernel, receive_purge hroots messages, by decide +kernel⟩

end Mirror

end ValueTree
