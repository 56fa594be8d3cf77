import ValueTree.Store

/-!
# Subtrees in the index

In the order of ids everything below an id stands in one piece right behind it. So the scan from a
place on finds all that lies below the place, and nothing else.
-/

open Std

namespace ValueTree

namespace Id

/-! ## One segment further down -/

/-- The id one segment further down, whatever the segment is. -/
def child (i : Id) (segment : String) : Id := ⟨i.segments ++ [segment]⟩

theorem join_eq_ok_iff {i root : Id} {segment : String} :
    i.join segment = .ok root ↔ segmentFault? segment = none ∧ root = i.child segment := by
  unfold join child
  cases segmentFault? segment with
  | none => simp [eq_comm]
  | some fault => simp

@[simp]
theorem parent?_child (i : Id) (segment : String) : (i.child segment).parent? = some i := by
  simp [parent?, child]

@[simp]
theorem leaf?_child (i : Id) (segment : String) : (i.child segment).leaf? = some segment := by
  simp [leaf?, child]

@[simp]
theorem child_inj {i j : Id} {k l : String} : i.child k = j.child l ↔ i = j ∧ k = l := by
  cases i
  cases j
  simp [child]

theorem child_ne (i : Id) (segment : String) : i.child segment ≠ i := by
  intro h
  have := congrArg (fun i => i.segments.length) h
  simp [child] at this

/-- Every id but the root is one segment below another. -/
theorem root_or_child (i : Id) : i = root ∨ ∃ p k, i = child p k := by
  obtain ⟨segments⟩ := i
  rcases List.eq_nil_or_concat segments with rfl | ⟨front, last, rfl⟩
  · exact Or.inl rfl
  · exact Or.inr ⟨⟨front⟩, last, by simp [child]⟩

/-! ## At or below -/

theorem startsWith_iff {i p : Id} : i.startsWith p = true ↔ p.segments <+: i.segments :=
  List.isPrefixOf_iff_prefix

@[simp]
theorem startsWith_self (i : Id) : i.startsWith i = true :=
  startsWith_iff.mpr List.prefix_rfl

theorem ne_of_not_startsWith {i p : Id} (h : i.startsWith p = false) : i ≠ p := by
  rintro rfl
  rw [startsWith_self] at h
  cases h

theorem startsWith_trans {i j p : Id} (hi : i.startsWith j = true) (hj : j.startsWith p = true) :
    i.startsWith p = true :=
  startsWith_iff.mpr ((startsWith_iff.mp hj).trans (startsWith_iff.mp hi))

/-- What lies at or below `r` and is one segment below `i` is `r` itself or has `i` below `r`. -/
theorem child_startsWith_iff {i r : Id} {segment : String} :
    (i.child segment).startsWith r = true ↔ i.child segment = r ∨ i.startsWith r = true := by
  obtain ⟨r⟩ := r
  simp only [startsWith_iff, child, List.prefix_concat_iff, Id.mk.injEq]
  rw [eq_comm]

@[simp]
theorem not_startsWith_child (i : Id) (segment : String) :
    i.startsWith (i.child segment) = false := by
  refine Bool.eq_false_iff.mpr fun h => ?_
  have hlength := (startsWith_iff.mp h).length_le
  simp only [child, List.length_append, List.length_singleton] at hlength
  omega

/-! ## The order of ids -/

theorem compare_eq_compareLex (i j : Id) :
    compare i j = List.compareLex compare i.segments j.segments := rfl

theorem compareLex_of_prefix {p s : List String} (h : p <+: s) :
    List.compareLex compare s p ≠ .lt := by
  induction p generalizing s with
  | nil => cases s <;> simp [List.compareLex]
  | cons x p ih =>
    obtain ⟨t, rfl⟩ := h
    rw [List.cons_append, List.compareLex_cons_cons, ReflOrd.compare_self (a := x)]
    exact ih (List.prefix_append p t)

/-- What stands between a list and one that it starts starts with it, too. -/
theorem prefix_of_between {p s t : List String} (hp : p <+: t)
    (hs : List.compareLex compare s p ≠ .lt) (ht : List.compareLex compare s t ≠ .gt) :
    p <+: s := by
  induction p generalizing s t with
  | nil => exact List.nil_prefix
  | cons x p ih =>
    obtain ⟨u, rfl⟩ := hp
    cases s with
    | nil => exact absurd rfl hs
    | cons y s =>
      rw [List.compareLex_cons_cons] at hs
      rw [List.cons_append, List.compareLex_cons_cons] at ht
      -- The first segments have to be the same: otherwise one of the two comparisons is settled.
      cases h : compare y x with
      | lt => simp [h] at hs
      | gt => simp [h] at ht
      | eq =>
        rw [h, Ordering.eq_then] at hs ht
        rw [LawfulEqOrd.eq_of_compare h, List.cons_prefix_cons]
        exact ⟨rfl, ih (List.prefix_append p u) hs ht⟩

theorem not_before_of_startsWith {i p : Id} (h : i.startsWith p = true) : i.before p = false := by
  have := compareLex_of_prefix (startsWith_iff.mp h)
  rw [before, compare_eq_compareLex]
  cases hc : List.compareLex compare i.segments p.segments <;> simp_all

theorem not_before_of_lt {i j p : Id} (hi : i.before p = false) (hij : compare i j = .lt) :
    j.before p = false := by
  rw [Bool.eq_false_iff] at hi ⊢
  intro hj
  exact hi (Ordering.isLT_iff_eq_lt.mpr (TransCmp.lt_trans hij (Ordering.isLT_iff_eq_lt.mp hj)))

/-- What comes before an id does not lie below it. -/
theorem not_startsWith_of_lt {i j : Id} (h : compare i j = .lt) : i.startsWith j = false := by
  rw [Bool.eq_false_iff]
  intro hbelow
  have hnot := not_before_of_startsWith hbelow
  simp [before, h] at hnot

theorem startsWith_of_between {i j p : Id} (hj : j.startsWith p = true) (hi : i.before p = false)
    (hij : compare i j = .lt) : i.startsWith p = true := by
  apply startsWith_iff.mpr (prefix_of_between (startsWith_iff.mp hj) _ _)
  · intro h
    rw [before, compare_eq_compareLex, h] at hi
    simp at hi
  · rw [← compare_eq_compareLex, hij]
    simp

end Id

namespace Store

/-! ## Scans -/

theorem takeWhile_startsWith {ids : List Id} (place : Id)
    (hsorted : ids.Pairwise fun i j => compare i j = .lt)
    (hfrom : ∀ i ∈ ids, i.before place = false) :
    ids.takeWhile (·.startsWith place) = ids.filter (·.startsWith place) := by
  induction ids with
  | nil => rfl
  | cons i rest ih =>
    obtain ⟨hi, hrest⟩ := List.pairwise_cons.mp hsorted
    cases h : i.startsWith place with
    | true =>
      simp only [List.takeWhile_cons, List.filter_cons, h, if_true]
      rw [ih hrest fun j hj => hfrom j (List.mem_cons_of_mem _ hj)]
    | false =>
      simp only [List.takeWhile_cons, List.filter_cons, h, Bool.false_eq_true, if_false]
      symm
      rw [List.filter_eq_nil_iff]
      intro j hj hjp
      have := Id.startsWith_of_between hjp (hfrom i List.mem_cons_self) (hi j hj)
      simp [h] at this

/-- A scan finds what a search through all ids would find. -/
theorem scan_eq_filter {ids : List Id} (place : Id)
    (hsorted : ids.Pairwise fun i j => compare i j = .lt) :
    scan place ids = ids.filter (·.startsWith place) := by
  induction ids with
  | nil => rfl
  | cons i rest ih =>
    obtain ⟨hi, hrest⟩ := List.pairwise_cons.mp hsorted
    cases h : i.before place with
    | true =>
      have hout : i.startsWith place = false := by
        rw [Bool.eq_false_iff]
        intro hp
        simp [Id.not_before_of_startsWith hp] at h
      simp only [scan, List.dropWhile_cons, List.filter_cons, h, hout, if_true,
        Bool.false_eq_true, if_false]
      exact ih hrest
    | false =>
      simp only [scan, List.dropWhile_cons, h, Bool.false_eq_true, if_false]
      apply takeWhile_startsWith place hsorted
      intro j hj
      rcases List.mem_cons.mp hj with rfl | hj
      · exact h
      · exact Id.not_before_of_lt h (hi j hj)

theorem subtree_eq_filter (s : Store) (id : Id) :
    s.subtree id = s.index.toList.filter (·.startsWith id) :=
  scan_eq_filter id ExtTreeSet.ordered_toList

theorem mem_subtree {s : Store} {id x : Id} :
    x ∈ s.subtree id ↔ x ∈ s.index ∧ x.startsWith id = true := by
  rw [subtree_eq_filter, List.mem_filter, ExtTreeSet.mem_toList]

/-- What lies below another id comes after it. -/
theorem pairwise_index (s : Store) :
    s.index.toList.Pairwise fun i j => i.startsWith j = false :=
  ExtTreeSet.ordered_toList.imp Id.not_startsWith_of_lt

theorem pairwise_subtree (s : Store) (id : Id) :
    (s.subtree id).Pairwise fun i j => i.startsWith j = false := by
  rw [subtree_eq_filter]
  exact s.pairwise_index.filter _

theorem nodup_index (s : Store) : s.index.toList.Nodup := by
  apply ExtTreeSet.ordered_toList.imp
  intro i j hij he
  rw [he, ReflOrd.compare_self (a := j)] at hij
  exact absurd hij (by decide)

theorem nodup_subtree (s : Store) (id : Id) : (s.subtree id).Nodup := by
  rw [subtree_eq_filter]
  exact s.nodup_index.filter _

end Store

end ValueTree
