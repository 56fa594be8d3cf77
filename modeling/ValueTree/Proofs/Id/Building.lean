import ValueTree.Id.Token
import ValueTree.Message.Cbor
import ValueTree.Proofs.Id.Text

/-!
# Ids and texts, one for one

Which texts are ids is told by their separators alone. Ids that are built out of texts, segments and
other ids have proper segments, so each of them has a text of its own.
-/

namespace ValueTree

namespace Id

/-! ## Gaps in a text -/

/-- No part is missing: before the first separator, after the last one, or between two of them. -/
def Gapless (cs : List Char) : Prop :=
  ¬[separator] <+: cs ∧ ¬[separator] <:+ cs ∧ ¬[separator, separator] <:+: cs

theorem separator_notMem_of_mem_splitParts {cs part : List Char} (h : part ∈ splitParts cs) :
    separator ∉ part := by
  induction cs generalizing part with
  | nil =>
    rw [List.mem_singleton.mp h]
    exact List.not_mem_nil
  | cons c cs ih =>
    obtain ⟨first, rest, hparts⟩ := List.exists_cons_of_ne_nil (joinParts_splitParts cs).1
    rw [hparts] at ih
    by_cases hc : c = separator
    · subst hc
      rw [splitParts_separator, hparts] at h
      rcases List.mem_cons.mp h with rfl | h
      · exact List.not_mem_nil
      · exact ih h
    · rw [splitParts, if_neg hc, hparts] at h
      rcases List.mem_cons.mp h with rfl | h
      · rw [List.mem_cons, not_or]
        exact ⟨Ne.symm hc, ih List.mem_cons_self⟩
      · exact ih (List.mem_cons_of_mem _ h)

/-- The first part is empty just if nothing stands before the first separator. -/
theorem first_eq_nil_iff {cs first : List Char} {rest : List (List Char)}
    (h : splitParts cs = first :: rest) : first = [] ↔ cs = [] ∨ [separator] <+: cs := by
  cases cs with
  | nil =>
    obtain ⟨rfl, -⟩ := List.cons.inj h
    exact iff_of_true rfl (Or.inl rfl)
  | cons c cs =>
    obtain ⟨part, others, hparts⟩ := List.exists_cons_of_ne_nil (joinParts_splitParts cs).1
    by_cases hc : c = separator
    · subst hc
      rw [splitParts_separator] at h
      obtain ⟨rfl, -⟩ := List.cons.inj h
      exact iff_of_true rfl (Or.inr (List.prefix_append [separator] cs))
    · rw [splitParts, if_neg hc, hparts] at h
      obtain ⟨rfl, -⟩ := List.cons.inj h
      simp [Ne.symm hc]

/-- A later part is empty if nothing stands between two separators or after the last one. -/
theorem nil_mem_tail_splitParts (cs : List Char) :
    [] ∈ (splitParts cs).tail ↔ [separator] <:+ cs ∨ [separator, separator] <:+: cs := by
  induction cs with
  | nil => simp [splitParts]
  | cons c cs ih =>
    obtain ⟨first, rest, hparts⟩ := List.exists_cons_of_ne_nil (joinParts_splitParts cs).1
    rw [hparts, List.tail_cons] at ih
    rw [List.suffix_cons_iff, List.infix_cons_iff, List.cons_prefix_cons, List.cons.injEq]
    by_cases hc : c = separator
    · subst hc
      rw [splitParts_separator, hparts, List.tail_cons, List.mem_cons, ih, eq_comm,
        first_eq_nil_iff hparts]
      simp only [true_and, @eq_comm _ [] cs]
      exact or_or_or_comm
    · rw [splitParts, if_neg hc, hparts, List.tail_cons, ih]
      simp [Ne.symm hc]

theorem nil_notMem_splitParts {cs : List Char} (hne : cs ≠ []) :
    [] ∉ splitParts cs ↔ Gapless cs := by
  obtain ⟨first, rest, hparts⟩ := List.exists_cons_of_ne_nil (joinParts_splitParts cs).1
  have htail := nil_mem_tail_splitParts cs
  rw [hparts, List.tail_cons] at htail
  rw [hparts, List.mem_cons, eq_comm, first_eq_nil_iff hparts, or_iff_right hne, htail, Gapless,
    not_or, not_or]

/-- Of the texts that are not empty, those without a gap are ids. -/
theorem exists_parse_eq_ok (text : String) :
    (∃ i, parse text = .ok i) ↔ text = "" ∨ Gapless text.toList := by
  by_cases hempty : text = ""
  · subst hempty
    exact iff_of_true ⟨root, rfl⟩ (Or.inl rfl)
  have hsegment (part : List Char) (hpart : part ∈ splitParts text.toList) :
      segmentFault? (String.ofList part) = none ↔ part ≠ [] := by
    rw [segmentFault?_eq_none, String.toList_ofList, ← String.ofList_nil, Ne, String.ofList_inj]
    exact and_iff_left (separator_notMem_of_mem_splitParts hpart)
  have hall : (∃ i, parse text = .ok i) ↔ ∀ part ∈ splitParts text.toList, part ≠ [] := by
    simp only [parse, if_neg hempty, ofSegments_eq_ok, WellFormed]
    constructor
    · rintro ⟨i, hproper, hsegments⟩ part hpart
      refine (hsegment part hpart).mp (hproper _ ?_)
      rw [hsegments]
      exact List.mem_map_of_mem hpart
    · intro hparts
      refine ⟨⟨_⟩, fun s hs => ?_, rfl⟩
      obtain ⟨part, hpart, rfl⟩ := List.mem_map.mp hs
      exact (hsegment part hpart).mpr (hparts part hpart)
  have hgapless := nil_notMem_splitParts fun hnil => hempty (String.toList_eq_nil_iff.mp hnil)
  rw [hall, or_iff_right hempty, ← hgapless]
  exact ⟨fun h hin => h [] hin rfl, fun h part hpart he => h (he ▸ hpart)⟩

/-! ## Building ids -/

/-- The ids that come out of texts and segments, and out of ids that are there already. -/
inductive Built : Id → Prop
  | parse {text : String} {i : Id} : parse text = .ok i → Built i
  | ofSegments {segments : List String} {i : Id} : ofSegments segments = .ok i → Built i
  | join {i j : Id} {segment : String} : Built i → i.join segment = .ok j → Built j
  | concat {i j : Id} : Built i → Built j → Built (i.concat j)
  | parent {i j : Id} : Built i → i.parent? = some j → Built j
  | relativeTo {i p j : Id} : Built i → i.relativeTo? p = some j → Built j

theorem WellFormed.of_subset {i j : Id} (h : i.WellFormed) (hsub : j.segments ⊆ i.segments) :
    j.WellFormed := fun s hs => h s (hsub hs)

theorem Built.wellFormed {i : Id} (h : Built i) : i.WellFormed := by
  induction h with
  | parse hparse => exact (parse_eq_ok.mp hparse).1
  | ofSegments hsegments => exact (ofSegments_eq_ok.mp hsegments).1
  | join _ hjoin ih => exact ih.join hjoin
  | concat _ _ ih ih' => exact fun s hs => (List.mem_append.mp hs).elim (ih s) (ih' s)
  | parent _ hparent ih =>
    unfold parent? at hparent
    split at hparent
    · cases hparent
    · cases hparent
      exact ih.of_subset (List.dropLast_subset _)
  | relativeTo _ hrest ih =>
    unfold relativeTo? at hrest
    split at hrest
    · cases hrest
      exact ih.of_subset (List.drop_subset _ _)
    · cases hrest

theorem Built.parse_toText {i : Id} (h : Built i) : Id.parse i.toText = .ok i :=
  parse_eq_ok.mpr ⟨h.wellFormed, rfl⟩

/-! ## One text for one id -/

/-- Texts and ids stand for each other. -/
structure OneForOne : Prop where
  /-- A text is an id unless a part is missing in it. -/
  readable (text : String) : (∃ i, parse text = .ok i) ↔ text = "" ∨ Gapless text.toList
  /-- An id that was read is written as what it was read from. -/
  written {text : String} {i : Id} : parse text = .ok i → i.toText = text
  /-- What can be built are the ids with proper segments. -/
  built {i : Id} : Built i ↔ i.WellFormed
  /-- However an id was built, its text is read as this id. -/
  returns {i : Id} : Built i → parse i.toText = .ok i
  distinct {i j : Id} : Built i → Built j → (i.toText = j.toText ↔ i = j)
  /-- Tokens and messages have nothing of an id but its text. -/
  shown (i : Id) : i.token = Token.ofText i.toText ∧ i.toCbor = Cbor.writeText i.toText

theorem oneForOne : OneForOne where
  readable := exists_parse_eq_ok
  written hparse := (parse_eq_ok.mp hparse).2
  built := ⟨Built.wellFormed, fun h => .ofSegments (ofSegments_eq_ok.mpr ⟨h, rfl⟩)⟩
  returns := Built.parse_toText
  distinct {i j} hi hj := by
    refine ⟨fun htext => ?_, congrArg toText⟩
    have hread := hi.parse_toText
    rw [htext, hj.parse_toText] at hread
    exact (Except.ok.inj hread).symm
  shown _ := ⟨rfl, rfl⟩

/-- A key that goes into an id unread may hold a separator. Then two ids have one text. -/
example :
    let i := (⟨["c", "+"]⟩ : Id).instantiate "a.b"
    i.toText = (⟨["c", "a", "b"]⟩ : Id).toText ∧ i ≠ ⟨["c", "a", "b"]⟩ := by
  decide +kernel

end Id

end ValueTree
