import ValueTree.Proofs.Store.Edits

/-!
# Stores that agree

Two stores agree if they hold the same payloads and the same keys. Access modes and schemas may
differ.
-/

namespace ValueTree

/-- What a node holds, whoever may write it. -/
structure Content where
  payload : Payload
  keys : List String

def Node.content (node : Node) : Content := ⟨node.value.payload, node.keys⟩

/-- The content with some of the keys only. -/
def Content.retain (c : Content) (keep : String → Bool) : Content :=
  { c with keys := c.keys.filter keep }

theorem Content.retain_eq_self {c : Content} {keep : String → Bool}
    (h : ∀ key ∈ c.keys, keep key = true) : c.retain keep = c := by
  rw [retain, List.filter_eq_self.mpr h]

@[simp]
theorem Content.retain_retain (c : Content) (keep keep' : String → Bool) :
    (c.retain keep).retain keep' = c.retain fun key => keep' key && keep key := by
  simp [retain, Bool.and_comm]

namespace Store

def content? (s : Store) (id : Id) : Option Content := (s.node? id).map Node.content

/-- The same ids with the same contents. -/
def Agrees (s t : Store) : Prop := ∀ id, s.content? id = t.content? id

variable {s t : Store} {id x : Id}

theorem has_eq_isSome : s.has x = (s.content? x).isSome := by
  rw [has, content?, Option.isSome_map]

theorem content?_eq_none : s.content? x = none ↔ s.has x = false := by
  rw [has_eq_isSome, Option.isSome_eq_false_iff, Option.isNone_iff_eq_none]

theorem content?_put (node : Node) :
    (s.put id node).content? x = if id = x then some node.content else s.content? x := by
  simp only [content?, node?_put, apply_ite (Option.map Node.content), Option.map_some]

theorem content?_add (value : Value) :
    (s.add value).content? x = if value.id = x then some ⟨value.payload, []⟩ else s.content? x := by
  simp only [content?, node?_add, apply_ite (Option.map Node.content), Option.map_some,
    Node.content]

theorem content?_eraseAll (ids : List Id) :
    (s.eraseAll ids).content? x = if x ∈ ids then none else s.content? x := by
  simp only [content?, node?_eraseAll, apply_ite (Option.map Node.content), Option.map_none]

theorem content?_unlink (r : Id) :
    (s.unlink r).content? x = (s.content? x).map (·.retain (x.child · ≠ r)) := by
  have hsame (hr : ∀ key, x.child key ≠ r) :
      (s.content? x).map (·.retain (x.child · ≠ r)) = s.content? x := by
    cases s.content? x with
    | none => rfl
    | some c => exact congrArg some (Content.retain_eq_self fun key _ => by simpa using hr key)
  rcases r.root_or_child with rfl | ⟨p, key, rfl⟩
  · rw [unlink_root, hsame]
    simp [Id.child, Id.root]
  · rw [content?, node?_unlink_child]
    by_cases hx : p = x
    · subst hx
      rw [if_pos rfl, content?, Option.map_map, Option.map_map]
      congr 1
      funext node
      simp [Node.content, Node.forget, Content.retain]
    · rw [if_neg hx, hsame, content?]
      intro k hk
      exact hx (Id.child_inj.mp hk).1.symm

namespace Agrees

variable (h : s.Agrees t)

include h

theorem symm : t.Agrees s := fun id => (h id).symm

theorem has_eq : s.has x = t.has x := by
  rw [has_eq_isSome, has_eq_isSome, h x]

theorem node? {node : Node} (hnode : s.node? x = some node) :
    ∃ other, t.node? x = some other ∧ other.content = node.content := by
  have := h x
  rw [content?, hnode] at this
  exact Option.map_eq_some_iff.mp this.symm

theorem node?_eq_none (hnone : s.node? x = none) : t.node? x = none := by
  rw [← has_eq_false, ← h.has_eq, has_eq_false, hnone]

theorem payload_eq : (s.get? x).map (·.payload) = (t.get? x).map (·.payload) := by
  have := congrArg (Option.map Content.payload) (h x)
  simpa [content?, get?, Function.comp_def, Node.content] using this

theorem keys_eq : s.keys x = t.keys x := by
  unfold keys
  cases hnode : s.node? x with
  | none => simp [h.node?_eq_none hnode]
  | some node =>
    obtain ⟨other, hother, hcontent⟩ := h.node? hnode
    have hpayload : other.value.payload = node.value.payload := congrArg Content.payload hcontent
    have hkeys : other.keys = node.keys := congrArg Content.keys hcontent
    simp [hother, hpayload, hkeys]

theorem index_eq (hs : s.WellFormed) (ht : t.WellFormed) : s.index = t.index := by
  apply Std.ExtTreeSet.ext_mem
  intro x
  rw [hs.index_iff, ht.index_iff, h.has_eq]

theorem put {node other : Node} (hcontent : node.content = other.content) :
    (s.put id node).Agrees (t.put id other) := by
  intro x
  rw [content?_put, content?_put, h x, hcontent]

/-- One store may take on a node with the content that it has already. -/
theorem put_left {node node' : Node} (hnode : s.node? id = some node)
    (hcontent : node'.content = node.content) : (s.put id node').Agrees t := by
  intro x
  rw [content?_put, ← h x]
  split
  · subst_vars
    rw [content?, hnode, hcontent]
    rfl
  · rfl

theorem add {value other : Value} (hid : value.id = other.id)
    (hpayload : value.payload = other.payload) : (s.add value).Agrees (t.add other) := by
  intro x
  rw [content?_add, content?_add, h x, hid, hpayload]

theorem eraseAll (ids : List Id) : (s.eraseAll ids).Agrees (t.eraseAll ids) := by
  intro x
  rw [content?_eraseAll, content?_eraseAll, h x]

end Agrees

/-- Well-formed stores that agree have the same ids. -/
theorem Agrees.ids_eq (h : s.Agrees t) (hs : s.WellFormed) (ht : t.WellFormed) : s.ids = t.ids := by
  rw [hs.indexed.ids_eq, ht.indexed.ids_eq, h.index_eq hs ht]

/-! ## Removals -/

/-- What a removal leaves: nothing at or below the id, and no key for it. Where the id is not there,
nothing below it may be there either. -/
theorem content?_remove (h : s.WellFormed) (origin : Origin) {r : Id}
    (hthere : s.has r = true ∨ ∀ x, x.startsWith r = true → s.has x = false) :
    (s.remove r origin).store.content? x =
      if x.startsWith r then none else (s.content? x).map (·.retain (x.child · ≠ r)) := by
  unfold remove
  cases hr : s.has r with
  | true =>
    simp only [if_true, content?_eraseAll, List.mem_reverse, mem_subtree, content?_unlink,
      h.index_iff]
    cases hx : x.startsWith r with
    | false => simp
    | true =>
      cases hhas : s.has x with
      | true => simp
      | false => simp [content?_eq_none.mpr hhas]
  | false =>
    have hnothing := hthere.resolve_left (Bool.eq_false_iff.mp hr)
    simp only [Bool.false_eq_true, if_false, unchanged]
    cases hx : x.startsWith r with
    | true => exact content?_eq_none.mpr (hnothing x hx)
    | false =>
      cases hnode : s.node? x with
      | none => simp [content?, hnode]
      | some node =>
        simp only [content?, hnode, Option.map_some, Bool.false_eq_true, if_false]
        rw [Content.retain_eq_self]
        intro key hkey
        have := h.keys_have hnode hkey
        simp only [decide_eq_true_eq]
        rintro rfl
        simp [hr] at this

/-- What stands there or has nothing below it is so still when something else was removed. -/
theorem there_or_clear_remove (h : s.WellFormed) {r r' : Id}
    (hr : s.has r = true ∨ ∀ x, x.startsWith r = true → s.has x = false)
    (hr' : s.has r' = true ∨ ∀ x, x.startsWith r' = true → s.has x = false) :
    (s.remove r .remote).store.has r' = true ∨
      ∀ y, y.startsWith r' = true → (s.remove r .remote).store.has y = false := by
  simp only [has_eq_isSome, content?_remove h .remote hr]
  rcases hr' with hhas | hnothing
  · cases hbelow : r'.startsWith r with
    | true =>
      right
      intro y hy
      simp [Id.startsWith_trans hy hbelow]
    | false =>
      left
      rw [has_eq_isSome] at hhas
      simp [hhas]
  · right
    intro y hy
    rw [content?_eq_none.mpr (hnothing y hy)]
    split <;> rfl

/-- Removes ids one after the other. -/
def removeEach (s : Store) (ids : List Id) : Store :=
  ids.foldl (fun s id => (s.remove id .remote).store) s

theorem content?_removeEach (h : s.WellFormed) {ids : List Id}
    (hthere : ∀ r ∈ ids, s.has r = true ∨ ∀ x, x.startsWith r = true → s.has x = false) :
    (s.removeEach ids).content? x =
      if ∃ r ∈ ids, x.startsWith r = true then none
      else (s.content? x).map (·.retain (x.child · ∉ ids)) := by
  induction ids generalizing s with
  | nil =>
    simp only [removeEach, List.foldl_nil, List.not_mem_nil, false_and, exists_false, if_false,
      not_false_eq_true, decide_true]
    cases s.content? x with
    | none => rfl
    | some c => exact congrArg some (Content.retain_eq_self fun _ _ => rfl).symm
  | cons r rest ih =>
    have hr := hthere r List.mem_cons_self
    have hrest : ∀ r' ∈ rest, (s.remove r .remote).store.has r' = true ∨
        ∀ y, y.startsWith r' = true → (s.remove r .remote).store.has y = false :=
      fun r' hr' => there_or_clear_remove h hr (hthere r' (List.mem_cons_of_mem _ hr'))
    simp only [removeEach, List.foldl_cons] at ih ⊢
    rw [ih (h.remove r .remote) hrest, content?_remove h .remote hr]
    by_cases hx : x.startsWith r = true
    · simp [hx]
    · by_cases hex : ∃ r' ∈ rest, x.startsWith r' = true
      · simp [hex]
      · have hcons : ¬∃ r' ∈ r :: rest, x.startsWith r' = true := by
          rintro ⟨r', hr', hxr'⟩
          rcases List.mem_cons.mp hr' with rfl | hr'
          · exact hx hxr'
          · exact hex ⟨r', hr', hxr'⟩
        rw [if_neg hex, if_neg hx, if_neg hcons, Option.map_map]
        congr 1
        funext c
        simp only [Function.comp_apply, Content.retain_retain, List.mem_cons, not_or, ne_eq]
        congr 1
        funext key
        simp [Bool.and_comm]

end Store

end ValueTree
