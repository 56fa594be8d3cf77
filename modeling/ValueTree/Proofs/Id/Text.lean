import ValueTree.Id

/-!
# Ids as text and back

The text of an id with proper segments is read as this very id, and nothing else is ever read.
-/

namespace ValueTree.Id

/-! ## Parts between dots -/

theorem splitParts_separator (cs : List Char) :
    splitParts (separator :: cs) = [] :: splitParts cs := by
  rw [splitParts, if_pos rfl]

theorem splitParts_of_notMem {part : List Char} (h : separator ∉ part) :
    splitParts part = [part] := by
  induction part with
  | nil => rfl
  | cons c part ih =>
    rw [List.mem_cons, not_or] at h
    rw [splitParts, if_neg (Ne.symm h.1), ih h.2]

theorem splitParts_append_separator {part : List Char} (h : separator ∉ part) (cs : List Char) :
    splitParts (part ++ separator :: cs) = part :: splitParts cs := by
  induction part with
  | nil => exact splitParts_separator cs
  | cons c part ih =>
    rw [List.mem_cons, not_or] at h
    rw [List.cons_append, splitParts, if_neg (Ne.symm h.1), ih h.2]

theorem splitParts_joinParts {parts : List (List Char)} (hne : parts ≠ [])
    (h : ∀ part ∈ parts, separator ∉ part) : splitParts (joinParts parts) = parts := by
  induction parts with
  | nil => exact absurd rfl hne
  | cons part rest ih =>
    have hpart := h part List.mem_cons_self
    cases rest with
    | nil => exact splitParts_of_notMem hpart
    | cons next rest =>
      rw [joinParts, splitParts_append_separator hpart,
        ih (by simp) fun p hp => h p (List.mem_cons_of_mem _ hp)]

theorem joinParts_splitParts (cs : List Char) :
    splitParts cs ≠ [] ∧ joinParts (splitParts cs) = cs := by
  induction cs with
  | nil => exact ⟨by simp [splitParts], rfl⟩
  | cons c cs ih =>
    obtain ⟨hne, hjoin⟩ := ih
    obtain ⟨part, rest, hparts⟩ := List.exists_cons_of_ne_nil hne
    rw [hparts] at hjoin
    by_cases h : c = separator
    · subst h
      rw [splitParts_separator, hparts, joinParts, hjoin]
      exact ⟨by simp, rfl⟩
    · rw [splitParts, if_neg h, hparts]
      refine ⟨by simp, ?_⟩
      cases rest with
      | nil => exact congrArg (c :: ·) hjoin
      | cons next rest => exact congrArg (c :: ·) hjoin

/-! ## Proper segments -/

variable {i : Id} {text : String}

theorem ofSegments_eq_ok {segments : List String} :
    ofSegments segments = .ok i ↔ i.WellFormed ∧ i.segments = segments := by
  unfold ofSegments WellFormed
  split
  · rename_i fault hfound
    obtain ⟨s, hs, hfault⟩ := List.exists_of_findSome?_eq_some hfound
    refine ⟨nofun, ?_⟩
    rintro ⟨hall, rfl⟩
    simp [hall s hs] at hfault
  · rename_i hnone
    rw [List.findSome?_eq_none_iff] at hnone
    constructor
    · intro h
      cases h
      exact ⟨hnone, rfl⟩
    · rintro ⟨-, rfl⟩
      rfl

theorem WellFormed.join (h : i.WellFormed) {segment : String} {child : Id}
    (hjoin : i.join segment = .ok child) : child.WellFormed := by
  unfold Id.join at hjoin
  split at hjoin
  · simp at hjoin
  · rename_i hfault
    cases hjoin
    intro s hs
    rcases List.mem_append.mp hs with hs | hs
    · exact h s hs
    · rwa [List.mem_singleton.mp hs]

theorem segmentFault?_eq_none {segment : String} :
    segmentFault? segment = none ↔ segment ≠ "" ∧ separator ∉ segment.toList := by
  unfold segmentFault?
  split
  · simp [*]
  · split <;> simp [*]

/-- A text is read as the one proper id that has this text. -/
theorem parse_eq_ok : parse text = .ok i ↔ i.WellFormed ∧ i.toText = text := by
  unfold parse
  constructor
  · intro h
    split at h
    · cases h
      exact ⟨nofun, Eq.symm ‹_›⟩
    · obtain ⟨hi, hsegments⟩ := ofSegments_eq_ok.mp h
      refine ⟨hi, ?_⟩
      have hparts : i.segments.map String.toList = splitParts text.toList := by
        simp [hsegments, Function.comp_def]
      rw [toText, hparts, (joinParts_splitParts _).2, String.ofList_toList]
  · rintro ⟨hi, rfl⟩
    have hfree : ∀ part ∈ i.segments.map String.toList, separator ∉ part := by
      intro part hpart
      obtain ⟨segment, hsegment, rfl⟩ := List.mem_map.mp hpart
      exact (segmentFault?_eq_none.mp (hi segment hsegment)).2
    by_cases hroot : i.segments = []
    · obtain ⟨segments⟩ := i
      cases hroot
      rfl
    · have hsplit : splitParts i.toText.toList = i.segments.map String.toList := by
        rw [toText, String.toList_ofList, splitParts_joinParts (by simpa using hroot) hfree]
      -- The empty text has one part, which is no proper segment.
      have hfilled : i.toText ≠ "" := by
        intro hempty
        have hone : [[]] = i.segments.map String.toList := by
          rw [← hsplit, hempty]
          rfl
        obtain ⟨segment, hsegment, hnil⟩ := List.mem_map.mp (hone ▸ List.mem_singleton_self [])
        exact (segmentFault?_eq_none.mp (hi segment hsegment)).1 (String.toList_eq_nil_iff.mp hnil)
      rw [if_neg hfilled, ofSegments_eq_ok, hsplit]
      exact ⟨hi, by simp [Function.comp_def]⟩

end ValueTree.Id
