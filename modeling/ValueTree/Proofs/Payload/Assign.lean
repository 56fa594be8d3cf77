import ValueTree.Value

/-!
# What an assignment gives back

The result of an assignment is in normal form where the kind has one, and it is accepted again by
every target that accepted what it came from. So a result can be passed on in place of the original.
-/

open Std

namespace ValueTree

namespace Payload

/-! ## Sorted lists -/

theorem mem_insertSorted {x y : String} {xs : List String} :
    y ∈ insertSorted x xs ↔ y = x ∨ y ∈ xs := by
  induction xs with
  | nil => simp [insertSorted]
  | cons head rest ih =>
    unfold insertSorted
    cases h : compare x head with
    | lt => simp
    | eq => simp [LawfulEqOrd.eq_of_compare h]
    | gt => simp [ih, or_left_comm]

theorem pairwise_insertSorted {x : String} {xs : List String}
    (h : xs.Pairwise fun a b => compare a b = .lt) :
    (insertSorted x xs).Pairwise fun a b => compare a b = .lt := by
  induction xs with
  | nil => simp [insertSorted]
  | cons head rest ih =>
    obtain ⟨hhead, hrest⟩ := List.pairwise_cons.mp h
    unfold insertSorted
    cases hx : compare x head with
    | lt =>
      refine List.pairwise_cons.mpr ⟨?_, h⟩
      intro y hy
      rcases List.mem_cons.mp hy with rfl | hy
      · exact hx
      · exact TransCmp.lt_trans hx (hhead y hy)
    | eq => exact h
    | gt =>
      refine List.pairwise_cons.mpr ⟨?_, ih hrest⟩
      intro y hy
      rcases mem_insertSorted.mp hy with rfl | hy
      · exact OrientedCmp.lt_of_gt hx
      · exact hhead y hy

theorem pairwise_sortedSet (xs : List String) :
    (sortedSet xs).Pairwise fun a b => compare a b = .lt := by
  induction xs with
  | nil => exact List.Pairwise.nil
  | cons x xs ih => exact pairwise_insertSorted ih

theorem sortedSet_of_pairwise {xs : List String} (h : xs.Pairwise fun a b => compare a b = .lt) :
    sortedSet xs = xs := by
  induction xs with
  | nil => rfl
  | cons x xs ih =>
    obtain ⟨hx, hxs⟩ := List.pairwise_cons.mp h
    change insertSorted x (sortedSet xs) = x :: xs
    rw [ih hxs]
    cases xs with
    | nil => rfl
    | cons y rest => simp [insertSorted, hx y List.mem_cons_self]

theorem mem_sortedSet {x : String} {xs : List String} : x ∈ sortedSet xs ↔ x ∈ xs := by
  induction xs with
  | nil => rfl
  | cons head rest ih =>
    change x ∈ insertSorted head (sortedSet rest) ↔ x ∈ head :: rest
    rw [mem_insertSorted, ih, List.mem_cons]

theorem nodup_sortedSet (xs : List String) : (sortedSet xs).Nodup := by
  refine (pairwise_sortedSet xs).imp fun hlt => ?_
  rintro rfl
  simp at hlt

/-- A sorted list without repeats is known by its items. -/
theorem sortedSet_eq_iff {xs ys : List String} :
    sortedSet xs = sortedSet ys ↔ ∀ x, x ∈ xs ↔ x ∈ ys := by
  constructor
  · intro h x
    rw [← mem_sortedSet, h, mem_sortedSet]
  · intro h
    have hperm : (sortedSet xs).Perm (sortedSet ys) := by
      rw [List.perm_ext_iff_of_nodup (nodup_sortedSet xs) (nodup_sortedSet ys)]
      simpa only [mem_sortedSet] using h
    refine hperm.eq_of_pairwise ?_ (pairwise_sortedSet xs) (pairwise_sortedSet ys)
    exact fun _ _ _ _ hab hba => absurd hba (OrientedCmp.not_lt_of_lt hab)

/-! ## Lists without repeats -/

theorem mem_distinct {x : String} {xs : List String} : x ∈ distinct xs ↔ x ∈ xs := by
  induction xs with
  | nil => rfl
  | cons head rest ih =>
    by_cases h : x = head <;> simp [distinct, ih, h]

theorem nodup_distinct (xs : List String) : (distinct xs).Nodup := by
  induction xs with
  | nil => exact List.nodup_nil
  | cons x xs ih =>
    refine List.nodup_cons.mpr ⟨?_, ih.filter _⟩
    simp

theorem distinct_of_nodup {xs : List String} (h : xs.Nodup) : distinct xs = xs := by
  induction xs with
  | nil => rfl
  | cons x xs ih =>
    obtain ⟨hx, hxs⟩ := List.nodup_cons.mp h
    rw [distinct, ih hxs, List.filter_eq_self.mpr]
    intro y hy
    have : y ≠ x := fun e => hx (e ▸ hy)
    simpa using this

/-! ## Normal form -/

@[simp]
theorem normalize_normalize (p : Payload) : p.normalize.normalize = p.normalize := by
  cases p with
  | set items => simp only [normalize, sortedSet_of_pairwise (pairwise_sortedSet items)]
  | unorderedSet items => simp only [normalize, distinct_of_nodup (nodup_distinct items)]
  | _ => rfl

@[simp]
theorem kind_normalize (p : Payload) : p.normalize.kind = p.kind := by
  cases p <;> rfl

@[simp]
theorem validate_normalize (p : Payload) : p.normalize.validate = p.validate := by
  cases p <;> rfl

/-! ## Assignment -/

/-- What an assignment of `incoming` to `current` gave back: the old content, or content that is
accepted once more and comes out the same. -/
structure Settled {α : Type} (assign : α → α → Except SetError (SetStatus × α)) (current : α)
    (status : SetStatus) (result : α) : Prop where
  same : status = .sameValue → result = current
  again : status = .success → assign current result = .ok (.success, result)

section

variable {α : Type} [WholeNumber α] [DecidableEq α]

theorem settled_assignNumber {target source result : Bounded α} {status : SetStatus}
    (h : assignNumber target source = .ok (status, result)) :
    result.width = target.width ∧ Settled assignNumber target status result := by
  unfold assignNumber at h
  split at h
  · obtain ⟨rfl, rfl⟩ : .sameValue = status ∧ target = result := by simpa using h
    exact ⟨rfl, fun _ => rfl, nofun⟩
  · rename_i hvalue
    cases hrange : checkRange source.number target.range with
    | error e => simp [hrange, Except.map] at h
    | ok u =>
      obtain ⟨rfl, rfl⟩ : .success = status ∧ { target with value := source.value } = result := by
        simpa [hrange, Except.map] using h
      refine ⟨rfl, nofun, fun _ => ?_⟩
      have hsame : ({ target with value := source.value } : Bounded α).number = source.number := rfl
      rw [assignNumber, if_neg hvalue, hsame, hrange]
      rfl

end

theorem settled_assignEnum {target source result : Enumeration} {status : SetStatus}
    (h : assignEnum target source = .ok (status, result)) :
    Settled assignEnum target status result := by
  unfold assignEnum at h
  split at h
  · obtain ⟨rfl, rfl⟩ : .sameValue = status ∧ target = result := by simpa using h
    exact ⟨fun _ => rfl, nofun⟩
  · rename_i hvalue
    split at h
    · rename_i hdeclared
      obtain ⟨rfl, rfl⟩ : .success = status ∧ { target with value := source.value } = result := by
        simpa using h
      exact ⟨nofun, fun _ => by simp [assignEnum, hvalue, hdeclared]⟩
    · simp at h

theorem settled_assignCollection {p q r : Payload} {status : SetStatus}
    (h : assignCollection p q = (status, r)) :
    (r = p ∨ r = q.normalize) ∧ Settled (fun p q => .ok (assignCollection p q)) p status r := by
  unfold assignCollection at h
  split at h
  · obtain ⟨rfl, rfl⟩ := Prod.mk.inj h
    exact ⟨Or.inl rfl, fun _ => rfl, nofun⟩
  · rename_i hdiffers
    obtain ⟨rfl, rfl⟩ := Prod.mk.inj h
    exact ⟨Or.inr rfl, nofun, fun _ => by simp [assignCollection, hdiffers]⟩

theorem settled_assignPlain {p q r : Payload} {status : SetStatus}
    (h : assignPlain p q = (status, r)) :
    (r = p ∨ r = q) ∧ Settled (fun p q => .ok (assignPlain p q)) p status r := by
  unfold assignPlain at h
  split at h
  · obtain ⟨rfl, rfl⟩ := Prod.mk.inj h
    exact ⟨Or.inl rfl, fun _ => rfl, nofun⟩
  · rename_i hdiffers
    obtain ⟨rfl, rfl⟩ := Prod.mk.inj h
    exact ⟨Or.inr rfl, nofun, fun _ => by simp [assignPlain, hdiffers]⟩

/-- Content of its own type settles as the payload that wraps it. -/
theorem settled_wrap {α : Type} {assign : α → α → Except SetError (SetStatus × α)}
    {wrap : α → Payload} {target source : α} {r : Payload} {status : SetStatus}
    (hwrap : ∀ source, assignSameKind (wrap target) (wrap source) =
      (assign target source).map fun found => (found.1, wrap found.2))
    (hsettled : ∀ {result}, assign target source = .ok (status, result) →
      Settled assign target status result)
    (h : assignSameKind (wrap target) (wrap source) = .ok (status, r)) :
    ∃ result, assign target source = .ok (status, result) ∧ r = wrap result ∧
      Settled assignSameKind (wrap target) status r := by
  rw [hwrap] at h
  cases ha : assign target source with
  | error e => simp [ha, Except.map] at h
  | ok found =>
    obtain ⟨rfl, rfl⟩ : found.1 = status ∧ wrap found.2 = r := by simpa [ha, Except.map] using h
    have hs := hsettled ha
    refine ⟨found.2, rfl, rfl, fun hsame => congrArg wrap (hs.same hsame), fun hsuccess => ?_⟩
    rw [hwrap, hs.again hsuccess]
    rfl

theorem settled_assignSameKind {p q r : Payload} {status : SetStatus} (hkind : p.kind = q.kind)
    (h : assignSameKind p q = .ok (status, r)) :
    r.kind = p.kind ∧ Settled assignSameKind p status r := by
  have hcollection (hp : ∀ q, assignSameKind p q = .ok (assignCollection p q)) :
      r.kind = p.kind ∧ Settled assignSameKind p status r := by
    obtain ⟨hr, hs⟩ := settled_assignCollection (Except.ok.inj ((hp q).symm.trans h))
    refine ⟨?_, hs.same, fun hsuccess => (hp r).trans (hs.again hsuccess)⟩
    rcases hr with rfl | rfl
    · rfl
    · rw [kind_normalize, hkind]
  have hplain (hp : ∀ q, assignSameKind p q = .ok (assignPlain p q)) :
      r.kind = p.kind ∧ Settled assignSameKind p status r := by
    obtain ⟨hr, hs⟩ := settled_assignPlain (Except.ok.inj ((hp q).symm.trans h))
    refine ⟨?_, hs.same, fun hsuccess => (hp r).trans (hs.again hsuccess)⟩
    rcases hr with rfl | rfl
    · rfl
    · rw [hkind]
  cases p with
  | set _ | unorderedSet _ | vector _ => exact hcollection fun _ => rfl
  | signed target =>
    cases q with
    | signed source =>
      obtain ⟨result, ha, rfl, hs⟩ :=
        settled_wrap (fun _ => rfl) (fun ha => (settled_assignNumber ha).2) h
      exact ⟨congrArg Kind.int (settled_assignNumber ha).1, hs⟩
    | _ => simp [assignSameKind] at h
  | unsigned target =>
    cases q with
    | unsigned source =>
      obtain ⟨result, ha, rfl, hs⟩ :=
        settled_wrap (fun _ => rfl) (fun ha => (settled_assignNumber ha).2) h
      exact ⟨congrArg Kind.int (settled_assignNumber ha).1, hs⟩
    | _ => simp [assignSameKind] at h
  | enum target =>
    cases q with
    | enum source =>
      obtain ⟨result, _, rfl, hs⟩ := settled_wrap (fun _ => rfl) settled_assignEnum h
      exact ⟨rfl, hs⟩
    | _ => simp [kind] at hkind
  | struct | container _ =>
    obtain ⟨rfl, rfl⟩ := Prod.mk.inj (Except.ok.inj h)
    exact ⟨rfl, nofun, fun _ => rfl⟩
  | _ => exact hplain fun _ => rfl

/-- A payload that was taken on has the kind that was asked for, and the target keeps its kind
unless it had none. -/
theorem kind_of_assign {p q r : Payload} {status : SetStatus}
    (h : p.assign q = .ok (status, r)) : r.kind = q.kind ∧ (p.kind = .unset ∨ r.kind = p.kind) := by
  unfold assign at h
  split at h
  · rename_i hp
    refine ⟨?_, Or.inl hp⟩
    split at h
    · rename_i hq
      obtain ⟨rfl, rfl⟩ := Prod.mk.inj (Except.ok.inj h)
      rw [hp, hq]
    · cases hv : q.validate with
      | error e => simp [hv, Except.map] at h
      | ok u =>
        obtain ⟨rfl, rfl⟩ : .success = status ∧ q.normalize = r := by
          simpa [hv, Except.map] using h
        exact kind_normalize q
  · split at h
    · simp at h
    · rename_i hkind
      have hkind := Decidable.not_not.mp hkind
      have := (settled_assignSameKind hkind h).1
      exact ⟨this.trans hkind, Or.inr this⟩

theorem settled_assign {p q r : Payload} {status : SetStatus}
    (h : p.assign q = .ok (status, r)) : Settled assign p status r := by
  have ⟨hrq, _⟩ := kind_of_assign h
  unfold assign at h
  split at h
  · rename_i hp
    split at h
    · obtain ⟨rfl, rfl⟩ := Prod.mk.inj (Except.ok.inj h)
      exact ⟨fun _ => rfl, nofun⟩
    · rename_i hq
      cases hv : q.validate with
      | error e => simp [hv, Except.map] at h
      | ok u =>
        obtain ⟨rfl, rfl⟩ : .success = status ∧ q.normalize = r := by
          simpa [hv, Except.map] using h
        exact ⟨nofun, fun _ => by simp [assign, hp, hq, hv, Except.map]⟩
  · rename_i hp
    split at h
    · simp at h
    · rename_i hkind
      have hkind := Decidable.not_not.mp hkind
      obtain ⟨hrp, hs⟩ := settled_assignSameKind hkind h
      refine ⟨hs.same, fun hsuccess => ?_⟩
      simp [assign, hp, hrp, hs.again hsuccess]

/-- Only an unset payload leaves an unset target as it is. -/
theorem success_of_unset {q r : Payload} {status : SetStatus} (hq : q ≠ .unset)
    (h : unset.assign q = .ok (status, r)) : status = .success := by
  have : q.kind ≠ .unset := by
    cases q <;> simp_all [kind]
  cases hv : q.validate <;> simp_all [assign, kind, Except.map]

/-- Nothing is written into a structure or a container. -/
theorem eq_of_isStructural {p q r : Payload} {status : SetStatus} (hp : p.kind.isStructural = true)
    (h : p.assign q = .ok (status, r)) : r = p := by
  have hrq := kind_of_assign h
  cases p with
  | struct =>
    cases r with
    | struct => rfl
    | _ => simp [kind] at hrq
  | container order =>
    cases q with
    | container asked =>
      have hkept : assign (container order) (container asked) = .ok (.success, container order) :=
        rfl
      exact (Prod.mk.inj (Except.ok.inj (h.symm.trans hkept))).2
    | _ => simp [assign, kind] at h
  | _ => simp [kind, Kind.isStructural] at hp

theorem eq_unset_of_kind {p : Payload} (h : p.kind = .unset) : p = .unset := by
  cases p <;> first | rfl | cases h

/-- A container that is declared as one stays as it is, and what is unset becomes one. -/
theorem container_of_assign {p r : Payload} {order : KeyOrder} {status : SetStatus}
    (h : p.assign (.container order) = .ok (status, r)) :
    p = .unset ∧ r = .container order ∨ r = p := by
  obtain ⟨hnew, hold⟩ := kind_of_assign h
  rcases hold with hunset | hkept
  · obtain rfl := eq_unset_of_kind hunset
    have hfresh : unset.assign (.container order) = .ok (.success, .container order) := rfl
    exact Or.inl ⟨rfl, (Prod.mk.inj (Except.ok.inj (h.symm.trans hfresh))).2⟩
  · refine Or.inr (eq_of_isStructural ?_ h)
    rw [← hkept, hnew]
    rfl

theorem assign_container {p : Payload} (h : p.kind = .unset ∨ p.kind = .container)
    (order : KeyOrder) : ∃ status result, p.assign (.container order) = .ok (status, result) := by
  cases p with
  | unset => exact ⟨_, _, rfl⟩
  | container kept => exact ⟨_, _, rfl⟩
  | _ => rcases h with h | h <;> cases h

/-- A legal payload is taken on as it is. -/
theorem Legal.assign_unset {p : Payload} (hset : p.kind ≠ .unset) (h : p.Legal) :
    unset.assign p = .ok (.success, p) := by
  have hunset : unset.kind = .unset := rfl
  rw [assign, if_pos hunset, if_neg hset, h.1, h.2]
  rfl

/-- What is legal is taken on where there is nothing yet. -/
theorem Legal.assign_absent {p : Payload} (h : p.Legal) :
    ∃ status, unset.assign p = .ok (status, p) := by
  by_cases hset : p.kind = .unset
  · rw [eq_unset_of_kind hset]
    exact ⟨_, rfl⟩
  · exact ⟨_, h.assign_unset hset⟩

/-! ## Legal payloads -/

theorem legal_normalize {p : Payload} (h : p.validate = .ok ()) : p.normalize.Legal :=
  ⟨(validate_normalize p).trans h, normalize_normalize p⟩

section
variable {α : Type} [WholeNumber α] [DecidableEq α]

theorem checkRange_of_assignNumber {target source result : Bounded α}
    (h : assignNumber target source = .ok (.success, result)) :
    checkRange result.number result.range = .ok () := by
  unfold assignNumber at h
  split at h
  · simp at h
  · cases hrange : checkRange source.number target.range with
    | error e => simp [hrange, Except.map] at h
    | ok u =>
      obtain rfl : { target with value := source.value } = result := by
        simpa [hrange, Except.map] using h
      exact hrange

end

theorem declares_of_assignEnum {target source result : Enumeration}
    (h : assignEnum target source = .ok (.success, result)) :
    result.declares result.value = true := by
  unfold assignEnum at h
  split at h
  · simp at h
  · split at h
    · rename_i hdeclared
      obtain rfl : { target with value := source.value } = result := by simpa using h
      exact hdeclared
    · simp at h

theorem legal_of_assignSameKind {p q r : Payload} (hkind : p.kind = q.kind)
    (h : assignSameKind p q = .ok (.success, r)) : r.Legal := by
  have hcollection (hp : assignSameKind p q = .ok (assignCollection p q))
      (hq : q.validate = .ok ()) : r.Legal := by
    have ha : assignCollection p q = (.success, r) := Except.ok.inj (hp.symm.trans h)
    unfold assignCollection at ha
    split at ha
    · simp at ha
    · exact (Prod.mk.inj ha).2 ▸ legal_normalize hq
  have hplain (hp : assignSameKind p q = .ok (assignPlain p q)) (hq : q.Legal) : r.Legal := by
    have ha : assignPlain p q = (.success, r) := Except.ok.inj (hp.symm.trans h)
    unfold assignPlain at ha
    split at ha
    · simp at ha
    · exact (Prod.mk.inj ha).2 ▸ hq
  cases p with
  | signed target =>
    cases q with
    | signed source =>
      obtain ⟨result, ha, rfl, -⟩ :=
        settled_wrap (fun _ => rfl) (fun ha => (settled_assignNumber ha).2) h
      exact ⟨checkRange_of_assignNumber ha, rfl⟩
    | _ => simp [assignSameKind] at h
  | unsigned target =>
    cases q with
    | unsigned source =>
      obtain ⟨result, ha, rfl, -⟩ :=
        settled_wrap (fun _ => rfl) (fun ha => (settled_assignNumber ha).2) h
      exact ⟨checkRange_of_assignNumber ha, rfl⟩
    | _ => simp [assignSameKind] at h
  | enum target =>
    cases q with
    | enum source =>
      obtain ⟨result, ha, rfl, -⟩ := settled_wrap (fun _ => rfl) settled_assignEnum h
      exact ⟨by simp [validate, declares_of_assignEnum ha], rfl⟩
    | _ => simp [kind] at hkind
  | struct | container _ =>
    obtain rfl := (Prod.mk.inj (Except.ok.inj h)).2
    exact ⟨rfl, rfl⟩
  | set _ | unorderedSet _ | vector _ =>
    refine hcollection rfl ?_
    cases q <;> first | rfl | simp [kind] at hkind
  | _ =>
    refine hplain rfl ?_
    cases q <;> first | exact ⟨rfl, rfl⟩ | simp [kind] at hkind

/-- What a change leaves is legal, whatever it replaced. -/
theorem legal_of_assign {p q r : Payload} (h : p.assign q = .ok (.success, r)) : r.Legal := by
  unfold assign at h
  split at h
  · split at h
    · simp at h
    · cases hv : q.validate with
      | error e => simp [hv, Except.map] at h
      | ok u =>
        obtain rfl : q.normalize = r := by simpa [hv, Except.map] using h
        exact legal_normalize hv
  · split at h
    · simp at h
    · rename_i hkind
      exact legal_of_assignSameKind (Decidable.not_not.mp hkind) h

end Payload

theorem Value.assign_eq_ok {v result : Value} {incoming : Payload} {status : SetStatus} :
    v.assign incoming = .ok (status, result) ↔
      ∃ payload, v.payload.assign incoming = .ok (status, payload) ∧
        result = { v with payload } := by
  unfold Value.assign
  cases v.payload.assign incoming with
  | error e => simp [Except.map]
  | ok found =>
    obtain ⟨s, p⟩ := found
    simp only [Except.map, Except.ok.injEq, Prod.mk.injEq]
    constructor
    · rintro ⟨rfl, rfl⟩
      exact ⟨p, ⟨rfl, rfl⟩, rfl⟩
    · rintro ⟨q, ⟨rfl, rfl⟩, rfl⟩
      exact ⟨rfl, rfl⟩

end ValueTree
