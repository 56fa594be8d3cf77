import ValueTree.Proofs.Payload.Assign

/-!
# Assigning the same payload again

A payload says something, and some of it is only how it says so: bounds, enumerators and orders.
An assignment gives the target the content of the source and leaves the rest to the target. So what
a target took on once it takes on again, and it stays as it is then. For all but the structural kinds
the second time is known to be a repeat.
-/

namespace ValueTree

namespace Payload

/-- The status of a payload that is assigned once more. -/
def repeatStatus (kind : Kind) : SetStatus := if kind.isStructural then .success else .sameValue

theorem repeatStatus_plain {kind : Kind} (h : kind.isStructural = false) :
    repeatStatus kind = .sameValue :=
  if_neg (Bool.eq_false_iff.mp h)

section

variable {α : Type} [WholeNumber α] [DecidableEq α]

/-- The bounds are the target's own. -/
theorem eq_of_assignNumber {target source result : Bounded α} {status : SetStatus}
    (h : assignNumber target source = .ok (status, result)) :
    result = { target with value := source.value } := by
  unfold assignNumber at h
  split at h
  · rename_i hsame
    obtain ⟨-, rfl⟩ := Prod.mk.inj (Except.ok.inj h)
    rw [← hsame]
  · cases hrange : checkRange source.number target.range with
    | error e => simp [hrange, Except.map] at h
    | ok u =>
      obtain ⟨-, rfl⟩ : .success = status ∧ { target with value := source.value } = result := by
        simpa [hrange, Except.map] using h
      rfl

end

/-- The enumerators are the target's own. -/
theorem eq_of_assignEnum {target source result : Enumeration} {status : SetStatus}
    (h : assignEnum target source = .ok (status, result)) :
    result = { target with value := source.value } := by
  unfold assignEnum at h
  split at h
  · rename_i hsame
    obtain ⟨-, rfl⟩ := Prod.mk.inj (Except.ok.inj h)
    rw [← hsame]
  · split at h
    · exact (Prod.mk.inj (Except.ok.inj h)).2.symm
    · cases h

theorem eq_of_assignPlain {p q r : Payload} {status : SetStatus}
    (h : assignPlain p q = (status, r)) : r = q := by
  unfold assignPlain at h
  split at h
  · rename_i hsame
    exact (Prod.mk.inj h).2.symm.trans hsame
  · exact (Prod.mk.inj h).2.symm

/-! ## What an assignment did -/

theorem assignSameKind_signed {target : Bounded Int64} {q r : Payload} {status : SetStatus}
    (h : assignSameKind (signed target) q = .ok (status, r)) :
    ∃ source, q = signed source ∧ r = signed { target with value := source.value } := by
  cases q with
  | signed source =>
    obtain ⟨result, ha, rfl, -⟩ :=
      settled_wrap (fun _ => rfl) (fun ha => (settled_assignNumber ha).2) h
    exact ⟨source, rfl, congrArg signed (eq_of_assignNumber ha)⟩
  | _ => cases h

theorem assignSameKind_unsigned {target : Bounded UInt64} {q r : Payload} {status : SetStatus}
    (h : assignSameKind (unsigned target) q = .ok (status, r)) :
    ∃ source, q = unsigned source ∧ r = unsigned { target with value := source.value } := by
  cases q with
  | unsigned source =>
    obtain ⟨result, ha, rfl, -⟩ :=
      settled_wrap (fun _ => rfl) (fun ha => (settled_assignNumber ha).2) h
    exact ⟨source, rfl, congrArg unsigned (eq_of_assignNumber ha)⟩
  | _ => cases h

theorem assignSameKind_enum {target source : Enumeration} {r : Payload} {status : SetStatus}
    (h : assignSameKind (enum target) (enum source) = .ok (status, r)) :
    r = enum { target with value := source.value } := by
  obtain ⟨result, ha, rfl, -⟩ := settled_wrap (fun _ => rfl) settled_assignEnum h
  exact congrArg enum (eq_of_assignEnum ha)

/-! ## Content -/

/-- What a payload says, without what is its own: the bounds of an integer, the enumerators of an
enumeration, the order of the items of an unordered set and the order of the keys of a container. -/
def content : Payload → Payload
  | signed n => signed (.unbounded n.width n.value)
  | unsigned n => unsigned (.unbounded n.width n.value)
  | enum e => enum { e with enumerators := [] }
  | unorderedSet items => unorderedSet (sortedSet items)
  | container _ => container .ordered
  | p => p

@[simp]
theorem kind_content (p : Payload) : p.content.kind = p.kind := by
  cases p <;> rfl

theorem content_normalize (p : Payload) : p.normalize.content = p.content.normalize := by
  cases p with
  | unorderedSet items =>
    have hsorted : sortedSet (distinct items) = sortedSet items :=
      sortedSet_eq_iff.mpr fun _ => mem_distinct
    have hdistinct : distinct (sortedSet items) = sortedSet items :=
      distinct_of_nodup (nodup_sortedSet items)
    simp only [normalize, content, hsorted, hdistinct]
  | _ => rfl

theorem sameItems_iff {xs ys : List String} :
    sameItems xs ys = true ↔ sortedSet xs = sortedSet ys := by
  rw [sortedSet_eq_iff]
  simp only [sameItems, Bool.and_eq_true, List.all_eq_true, decide_eq_true_eq]
  exact ⟨fun h x => ⟨h.1 x, h.2 x⟩, fun h => ⟨fun x => (h x).mp, fun x => (h x).mpr⟩⟩

theorem content_of_sameCollection {p q : Payload} (h : sameCollection p q = true) :
    p.content = q.content := by
  unfold sameCollection at h
  split at h
  · exact congrArg unorderedSet (sameItems_iff.mp h)
  · rw [of_decide_eq_true h]

/-! ## The target takes over the content -/

theorem content_of_assignCollection {p q r : Payload} {status : SetStatus}
    (h : assignCollection p q = (status, r)) : r.content = q.content.normalize := by
  rw [← content_normalize]
  unfold assignCollection at h
  split at h
  · rename_i hsame
    obtain ⟨-, rfl⟩ := Prod.mk.inj h
    exact content_of_sameCollection hsame
  · obtain ⟨-, rfl⟩ := Prod.mk.inj h
    rfl

theorem content_of_assignSameKind {p q r : Payload} {status : SetStatus} (hkind : p.kind = q.kind)
    (h : assignSameKind p q = .ok (status, r)) : r.content = q.content.normalize := by
  cases p with
  | set _ | unorderedSet _ | vector _ => exact content_of_assignCollection (Except.ok.inj h)
  | signed target =>
    obtain ⟨source, rfl, rfl⟩ := assignSameKind_signed h
    simp [content, normalize, Kind.int.inj hkind]
  | unsigned target =>
    obtain ⟨source, rfl, rfl⟩ := assignSameKind_unsigned h
    simp [content, normalize, Kind.int.inj hkind]
  | enum target =>
    cases q with
    | enum source =>
      obtain rfl := assignSameKind_enum h
      rfl
    | _ => cases hkind
  | struct | container _ =>
    obtain ⟨-, rfl⟩ := Prod.mk.inj (Except.ok.inj h)
    cases q <;> first | rfl | cases hkind
  | _ =>
    obtain rfl := eq_of_assignPlain (Except.ok.inj h)
    cases r <;> first | rfl | cases hkind

theorem content_of_assign {p q r : Payload} {status : SetStatus}
    (h : p.assign q = .ok (status, r)) : r.content = q.content.normalize := by
  unfold assign at h
  split at h
  · rename_i hp
    split at h
    · rename_i hq
      obtain ⟨-, rfl⟩ := Prod.mk.inj (Except.ok.inj h)
      rw [eq_unset_of_kind hp, eq_unset_of_kind hq]
      rfl
    · cases hv : q.validate with
      | error e => simp [hv, Except.map] at h
      | ok u =>
        obtain ⟨-, rfl⟩ : .success = status ∧ q.normalize = r := by simpa [hv, Except.map] using h
        exact content_normalize q
  · split at h
    · cases h
    · exact content_of_assignSameKind (Decidable.not_not.mp ‹_›) h

/-! ## The same content again -/

theorem assignSameKind_of_content {p q : Payload} (hset : p.kind ≠ .unset)
    (h : p.content = q.content.normalize) :
    assignSameKind p q = .ok (repeatStatus p.kind, p) := by
  have hkind : p.kind = q.kind := by simpa using congrArg kind h
  cases p with
  | unset => exact absurd rfl hset
  | unorderedSet kept =>
    cases q with
    | unorderedSet items =>
      rw [← content_normalize] at h
      have hsame : sameItems kept (distinct items) = true :=
        sameItems_iff.mpr (unorderedSet.inj h)
      simp [assignSameKind, assignCollection, normalize, sameCollection, hsame, repeatStatus, kind,
        Kind.isStructural]
    | _ => cases hkind
  | set _ | vector _ =>
    cases q <;> try cases hkind
    exact congrArg Except.ok (if_pos (decide_eq_true h))
  | signed target =>
    cases q with
    | signed source =>
      obtain ⟨-, hvalue⟩ : target.width = source.width ∧ target.value = source.value := by
        simpa [content, normalize, Bounded.unbounded] using h
      simp [assignSameKind, assignNumber, hvalue, Except.map, repeatStatus, kind,
        Kind.isStructural]
    | _ => cases h
  | unsigned target =>
    cases q with
    | unsigned source =>
      obtain ⟨-, hvalue⟩ : target.width = source.width ∧ target.value = source.value := by
        simpa [content, normalize, Bounded.unbounded] using h
      simp [assignSameKind, assignNumber, hvalue, Except.map, repeatStatus, kind,
        Kind.isStructural]
    | _ => cases h
  | enum target =>
    cases q with
    | enum source =>
      have hvalue : target.value = source.value := by simpa [content, normalize] using h
      simp [assignSameKind, assignEnum, hvalue, Except.map, repeatStatus, kind, Kind.isStructural]
    | _ => cases h
  | struct | container _ => rfl
  | _ =>
    cases q <;> try cases hkind
    exact congrArg Except.ok (if_pos h)

/-- A target that has the content already is left as it is. -/
theorem assign_of_content {p q : Payload} (h : p.content = q.content.normalize) :
    p.assign q = .ok (repeatStatus p.kind, p) := by
  have hkind : p.kind = q.kind := by simpa using congrArg kind h
  unfold assign
  split
  · rename_i hp
    rw [if_pos (hkind ▸ hp), hp]
    rfl
  · rw [if_neg (not_not_intro hkind), assignSameKind_of_content ‹_› h]

/-- What a target took on it takes on again, and it stays as it is then. -/
theorem repeat_assign {p q r : Payload} {status : SetStatus} (h : p.assign q = .ok (status, r)) :
    r.assign q = .ok (repeatStatus r.kind, r) :=
  assign_of_content (content_of_assign h)

/-- A legal payload says the same as itself. -/
theorem assign_self {p : Payload} (hlegal : p.Legal) (hkind : p.kind.isStructural = false) :
    p.assign p = .ok (.sameValue, p) := by
  have hcontent : p.content = p.content.normalize := by rw [← content_normalize, hlegal.2]
  rw [assign_of_content hcontent, repeatStatus_plain hkind]

/-- A payload that was taken on is a repeat from then on, and it is one also for every target that
took on the result in its place: the result can be passed on for the original. -/
theorem assign_relayed {p q r : Payload} {status : SetStatus} (h : p.assign q = .ok (status, r))
    (hplain : r.kind.isStructural = false) :
    r.assign q = .ok (.sameValue, r) ∧
      ∀ {d taken : Payload} {answer : SetStatus}, d.assign r = .ok (answer, taken) →
        taken.assign q = .ok (.sameValue, taken) := by
  constructor
  · rw [repeat_assign h, repeatStatus_plain hplain]
  · intro d taken answer hd
    have hcontent : taken.content = q.content.normalize := by
      rw [content_of_assign hd, content_of_assign h, normalize_normalize]
    rw [assign_of_content hcontent, (kind_of_assign hd).1, repeatStatus_plain hplain]

/-- An unordered set that holds the items already, one of them twice. -/
theorem assign_relayed_unordered :
    (unorderedSet ["x", "y", "x"]).assign (unorderedSet ["y", "x"]) =
        .ok (.sameValue, unorderedSet ["x", "y", "x"]) ∧
      unset.assign (unorderedSet ["x", "y", "x"]) = .ok (.success, unorderedSet ["x", "y"]) ∧
      (unorderedSet ["x", "y"]).assign (unorderedSet ["y", "x"]) =
        .ok (.sameValue, unorderedSet ["x", "y"]) := by
  have htaken : (unorderedSet ["x", "y", "x"]).assign (unorderedSet ["y", "x"]) =
      .ok (.sameValue, unorderedSet ["x", "y", "x"]) := rfl
  have hpassed : unset.assign (unorderedSet ["x", "y", "x"]) =
      .ok (.success, unorderedSet ["x", "y"]) := rfl
  exact ⟨htaken, hpassed, (assign_relayed htaken rfl).2 hpassed⟩

/-- An assignment is a repeat if it leaves the target as it is, other than for structural kinds. -/
theorem same_iff {p q r : Payload} {status : SetStatus} (h : p.assign q = .ok (status, r))
    (hplain : r.kind.isStructural = false) : status = .sameValue ↔ r = p := by
  constructor
  · exact (settled_assign h).same
  · rintro rfl
    have hagain := h.symm.trans (repeat_assign h)
    rw [repeatStatus_plain hplain] at hagain
    exact (Prod.mk.inj (Except.ok.inj hagain)).1

/-- An enumeration takes on the value of an enumeration. -/
theorem assign_enum {e : Enumeration} {q r : Payload} {status : SetStatus}
    (h : (enum e).assign q = .ok (status, r)) :
    ∃ source : Enumeration, q = .enum source ∧ r = .enum { e with value := source.value } ∧
      (status = .sameValue ↔ source.value = e.value) := by
  cases q with
  | enum source =>
    obtain rfl := assignSameKind_enum h
    refine ⟨source, rfl, rfl, (same_iff h rfl).trans ?_⟩
    rw [enum.injEq]
    exact ⟨congrArg Enumeration.value, fun hvalue => by rw [hvalue]⟩
  | _ => simp [assign, kind] at h

theorem assign_text {x : String} {q r : Payload} {status : SetStatus}
    (h : (text x).assign q = .ok (status, r)) :
    ∃ y, q = .text y ∧ r = .text y ∧ (status = .sameValue ↔ y = x) := by
  cases q with
  | text y =>
    have hassign : assignPlain (text x) (text y) = (status, r) := Except.ok.inj h
    obtain rfl := eq_of_assignPlain hassign
    exact ⟨y, rfl, rfl, (same_iff h rfl).trans (by rw [text.injEq])⟩
  | _ => simp [assign, kind] at h

theorem assign_text_of_ne {x y : String} (h : y ≠ x) :
    (text x).assign (text y) = .ok (.success, .text y) := by
  have hne : text x ≠ text y := fun hsame => h (text.inj hsame).symm
  simp [assign, kind, assignSameKind, assignPlain, hne]

end Payload

end ValueTree
