import ValueTree.Proofs.Store.Legality
import ValueTree.Proofs.Store.Pruning
import ValueTree.Proofs.Text.Utf8

/-!
# Searching below an id

Ids stand in the order of their segments, and segments in the order of their bytes. So a scan from an
id on finds just what a look at every id would find, and so do all questions that rest on it.
-/

open Std

namespace ValueTree

namespace Id

/-! ## Bytes -/

/-- The segments, each as its bytes. -/
def bytes (i : Id) : List (List UInt8) := i.segments.map Utf8.ofString

/-- Ids come in the order of their segments, the first bytes that differ deciding. -/
theorem compare_eq_lt_iff {i j : Id} : compare i j = .lt ↔ i.bytes < j.bytes := by
  obtain ⟨s⟩ := i
  obtain ⟨t⟩ := j
  rw [compare_eq_compareLex]
  simp only [bytes]
  induction s generalizing t with
  | nil =>
    cases t with
    | nil => simp [List.compareLex]
    | cons y t => exact iff_of_true rfl (List.nil_lt_cons _ _)
  | cons x s ih =>
    cases t with
    | nil => exact iff_of_false (by simp [List.compareLex]) (List.not_lt_nil _)
    | cons y t =>
      have hlt : compare x y = .lt ↔ Utf8.ofString x < Utf8.ofString y :=
        compareOfLessAndEq_eq_lt.trans Utf8.ofString_lt_iff.symm
      rw [List.compareLex_cons_cons, Ordering.then_eq_lt, List.map_cons, List.map_cons,
        List.cons_lt_cons_iff, Utf8.ofString_inj, hlt, LawfulEqCmp.compare_eq_iff_eq, ih]

/-- What lies below and is one segment deeper has one segment more. -/
theorem startsWith_and_depth {i p : Id} :
    i.startsWith p = true ∧ i.depth = p.depth + 1 ↔ ∃ segment, i = p.child segment := by
  constructor
  · rintro ⟨hbelow, hdepth⟩
    obtain ⟨rest, hrest⟩ := startsWith_iff.mp hbelow
    have hone : rest.length = 1 := by
      have := congrArg List.length hrest
      rw [List.length_append] at this
      simp only [depth] at hdepth
      omega
    obtain ⟨segment, rfl⟩ := List.length_eq_one_iff.mp hone
    exact ⟨segment, congrArg Id.mk hrest.symm⟩
  · rintro ⟨segment, rfl⟩
    exact ⟨startsWith_iff.mpr (List.prefix_append _ _), by simp [depth, child]⟩

end Id

/-! ## Blocks -/

/-- What stands at or below a place among some ids, in their order. -/
structure Block (ids : ExtTreeSet Id) (place : Id) (found : List Id) : Prop where
  eq_filter : found = ids.toList.filter (·.startsWith place)
  mem_iff (x : Id) : x ∈ found ↔ x ∈ ids ∧ x.startsWith place = true
  nodup : found.Nodup
  ascending : found.Pairwise fun i j => i.bytes < j.bytes
  /-- An id comes after all that it lies below. -/
  ancestorsFirst : found.Pairwise fun i j => i.startsWith j = false

namespace Store

theorem block_scan (ids : ExtTreeSet Id) (place : Id) : Block ids place (scan place ids.toList) := by
  have hordered : (scan place ids.toList).Pairwise fun i j => compare i j = .lt := by
    rw [scan_eq_filter place ExtTreeSet.ordered_toList]
    exact ExtTreeSet.ordered_toList.filter _
  constructor
  · exact scan_eq_filter place ExtTreeSet.ordered_toList
  · intro x
    rw [scan_eq_filter place ExtTreeSet.ordered_toList, List.mem_filter, ExtTreeSet.mem_toList]
  · refine hordered.imp fun hlt he => ?_
    rw [he, ReflOrd.compare_self] at hlt
    cases hlt
  · exact hordered.imp Id.compare_eq_lt_iff.mp
  · exact hordered.imp Id.not_startsWith_of_lt

/-! ## Questions and removals -/

/-- What a store knows of all that lies at or below an id. -/
structure Searched (s : Store) (id : Id) : Prop where
  /-- The ids that a search runs over are those of the values. -/
  index (x : Id) : x ∈ s.index ↔ s.has x = true
  subtree : Block s.index id (s.subtree id)
  children (x : Id) : x ∈ s.children id ↔ s.has x = true ∧ ∃ segment, x = id.child segment
  hasChildren : s.hasChildren id = true ↔ ∃ x, s.has x = true ∧ x.startsWith id = true ∧ x ≠ id
  /-- A removal takes all of it, tells of each id once, deepest first, and leaves every other
  value. -/
  removal (origin : Origin) : s.has id = true →
    (∀ x, (s.remove id origin).store.get? x = if x.startsWith id then none else s.get? x) ∧
      (s.remove id origin).events = (s.subtree id).reverse.map fun x => .removed x x.token origin
  /-- What is not there takes nothing along. -/
  absent (origin : Origin) : s.has id = false → s.remove id origin = s.unchanged false

theorem Indexed.searched {s : Store} (h : s.Indexed) (id : Id) : s.Searched id where
  index := h.index_iff
  subtree := block_scan s.index id
  children x := by
    rw [children, List.mem_filter, h.mem_subtree_iff, decide_eq_true_eq, and_assoc,
      Id.startsWith_and_depth]
  hasChildren := by
    simp only [Store.hasChildren, List.any_eq_true, h.mem_subtree_iff, decide_eq_true_eq, and_assoc]
  removal origin hhas := by
    refine ⟨fun x => ?_, h.events_remove hhas origin⟩
    rw [get?, h.node?_remove hhas]
    cases x.startsWith id with
    | true => rfl
    | false => simp [get?, Function.comp_def, Node.retain]
  absent origin hhas := by rw [remove, hhas, if_neg Bool.false_ne_true]

/-- A scan of any ids finds those at or below the place, and so does every search in a store, however
it came about. -/
theorem searches : (∀ ids place, Block ids place (scan place ids.toList)) ∧
    ∀ {declared : List Schema} {s : Store}, s.Reachable declared → ∀ id, s.Searched id :=
  ⟨block_scan, fun h id => h.indexed.searched id⟩

/-- In the order of texts `a-b` would stand between `a` and `a.b`. -/
theorem searches_dashed :
    let a : Id := ⟨["a"]⟩
    let b : Id := ⟨["a", "b"]⟩
    let dashed : Id := ⟨["a-b"]⟩
    let changes : List Change :=
      [.set a .struct .local, .set dashed (.bool true) .local, .set b (.bool true) .local]
    let s := (Quiet.after {} changes).store
    a.toText < dashed.toText ∧ dashed.toText < b.toText ∧ s.Reachable (Quiet.declaredBy changes) ∧
      s.has a = true ∧ s.children a = [b] ∧ (s.remove a .remote).store.get? b = none ∧
        (s.remove a .remote).store.get? dashed = some ⟨dashed, .readWrite, .bool true⟩ := by
  intro a b dashed changes s
  have hs : s.Reachable (Quiet.declaredBy changes) := Quiet.reachable_after changes
  have hhas : s.has a = true := by decide +kernel
  have hleft := ((searches.2 hs a).removal .remote hhas).1
  refine ⟨by decide +kernel, by decide +kernel, hs, hhas, by decide +kernel, hleft b, ?_⟩
  have hdashed : s.get? dashed = some ⟨dashed, .readWrite, .bool true⟩ := by decide +kernel
  exact (hleft dashed).trans hdashed

end Store

end ValueTree
