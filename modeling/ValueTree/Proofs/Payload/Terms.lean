import Mathlib.Data.List.Chain
import ValueTree.Proofs.Payload.Repeat

/-!
# The terms of a payload

The first payload that an unset target takes on binds it: from then on it keeps the kind, the width,
the bounds, the enumerators and the key order that it has, whatever is written into it. It never
holds what its own terms refuse, and what is not a change leaves it as it is.
-/

namespace ValueTree

/-- What a payload is bound to. -/
inductive Terms
  | signed (width : Width) (lower upper : Int64)
  | unsigned (width : Width) (lower upper : UInt64)
  | enum (enumerators : List Enumerator)
  | container (order : KeyOrder)
  | plain (kind : Kind)
deriving DecidableEq, Repr

def Terms.kind : Terms → Kind
  | signed width .. => .int width
  | unsigned width .. => .int width
  | enum _ => .enum
  | container _ => .container
  | plain kind => kind

namespace Payload

def terms : Payload → Terms
  | signed n => .signed n.width n.lower n.upper
  | unsigned n => .unsigned n.width n.lower n.upper
  | enum e => .enum e.enumerators
  | container order => .container order
  | p => .plain p.kind

@[simp]
theorem kind_terms (p : Payload) : p.terms.kind = p.kind := by
  cases p <;> rfl

/-! ## One write -/

theorem terms_of_assignSameKind {p q r : Payload} {status : SetStatus} (hkind : p.kind = q.kind)
    (h : assignSameKind p q = .ok (status, r)) : r.terms = p.terms := by
  cases p with
  | signed target =>
    obtain ⟨source, rfl, rfl⟩ := assignSameKind_signed h
    rfl
  | unsigned target =>
    obtain ⟨source, rfl, rfl⟩ := assignSameKind_unsigned h
    rfl
  | enum target =>
    cases q with
    | enum source =>
      obtain rfl := assignSameKind_enum h
      rfl
    | _ => cases hkind
  | set _ | unorderedSet _ | vector _ =>
    obtain ⟨rfl | rfl, -⟩ := settled_assignCollection (Except.ok.inj h)
    · rfl
    · cases q <;> first | rfl | cases hkind
  | struct | container _ =>
    obtain ⟨-, rfl⟩ := Prod.mk.inj (Except.ok.inj h)
    rfl
  | _ =>
    obtain rfl := eq_of_assignPlain (Except.ok.inj h)
    cases r <;> first | rfl | cases hkind

/-- A target that is bound stays bound to the same. -/
theorem terms_of_assign {p q r : Payload} {status : SetStatus} (hset : p.kind ≠ .unset)
    (h : p.assign q = .ok (status, r)) : r.terms = p.terms := by
  rw [assign, if_neg hset] at h
  split at h
  · cases h
  · exact terms_of_assignSameKind (Decidable.not_not.mp ‹_›) h

/-- A change binds the target, if it was not bound before. -/
theorem set_of_assign {p q r : Payload} (h : p.assign q = .ok (.success, r)) : r.kind ≠ .unset := by
  intro hr
  obtain ⟨hq, hp⟩ := kind_of_assign h
  have hp : p.kind = .unset := hp.elim id fun hkept => hkept ▸ hr
  rw [assign, if_pos hp, if_pos (hq ▸ hr)] at h
  cases h

theorem write_cases (p q : Payload) :
    (∃ e, p.write q = (.error e, p)) ∨
      ∃ status r, p.assign q = .ok (status, r) ∧ p.write q = (.ok status, r) := by
  unfold write
  cases p.assign q with
  | error e => exact .inl ⟨e, rfl⟩
  | ok found => exact .inr ⟨found.1, found.2, rfl, rfl⟩

theorem write_idle {p q : Payload} (h : (p.write q).1 ≠ .ok .success) : (p.write q).2 = p := by
  obtain ⟨e, hw⟩ | ⟨status, r, ha, hw⟩ := write_cases p q
  · rw [hw]
  · rw [hw] at h ⊢
    cases status with
    | success => exact absurd rfl h
    | sameValue => exact (settled_assign ha).same rfl

theorem legal_write {p : Payload} (q : Payload) (hlegal : p.Legal) : (p.write q).2.Legal := by
  by_cases h : (p.write q).1 = .ok .success
  · obtain ⟨e, hw⟩ | ⟨status, r, ha, hw⟩ := write_cases p q
    · rw [hw] at h
      cases h
    · rw [hw] at h ⊢
      cases h
      exact legal_of_assign ha
  · rwa [write_idle h]

theorem terms_write {p : Payload} (q : Payload) (hset : p.kind ≠ .unset) :
    (p.write q).2.terms = p.terms := by
  obtain ⟨e, hw⟩ | ⟨status, r, ha, hw⟩ := write_cases p q
  · rw [hw]
  · rw [hw]
    exact terms_of_assign hset ha

theorem set_write {p q : Payload} (h : (p.write q).1 = .ok .success) :
    (p.write q).2.kind ≠ .unset := by
  obtain ⟨e, hw⟩ | ⟨status, r, ha, hw⟩ := write_cases p q
  · rw [hw] at h
    cases h
  · rw [hw] at h ⊢
    cases h
    exact set_of_assign ha

/-! ## A row of writes -/

/-- What holds of a payload along all that is written into it. -/
structure Steadfast (trail : List (Except SetError SetStatus × Payload)) : Prop where
  legal : ∀ entry ∈ trail, entry.2.Legal
  bound : ∀ entry ∈ trail, entry.1 = .ok .success → entry.2.kind ≠ .unset
  terms : trail.Pairwise fun earlier later =>
    earlier.2.kind ≠ .unset → later.2.terms = earlier.2.terms
  idle : trail.IsChain fun before after => after.1 ≠ .ok .success → after.2 = before.2

theorem Steadfast.singleton {entry : Except SetError SetStatus × Payload} (hlegal : entry.2.Legal)
    (hbound : entry.1 = .ok .success → entry.2.kind ≠ .unset) : Steadfast [entry] where
  legal := by simpa using hlegal
  bound := by simpa using hbound
  terms := List.pairwise_singleton ..
  idle := .singleton _

theorem Steadfast.cons {entry next : Except SetError SetStatus × Payload}
    {trail : List (Except SetError SetStatus × Payload)} (h : Steadfast (next :: trail))
    (hlegal : entry.2.Legal) (hbound : entry.1 = .ok .success → entry.2.kind ≠ .unset)
    (hterms : entry.2.kind ≠ .unset → next.2.terms = entry.2.terms)
    (hidle : next.1 ≠ .ok .success → next.2 = entry.2) : Steadfast (entry :: next :: trail) where
  legal := List.forall_mem_cons.mpr ⟨hlegal, h.legal⟩
  bound := List.forall_mem_cons.mpr ⟨hbound, h.bound⟩
  terms := by
    refine List.pairwise_cons.mpr ⟨fun later hlater hset => ?_, h.terms⟩
    rcases List.mem_cons.mp hlater with rfl | hlater
    · exact hterms hset
    · have hnext : next.2.kind ≠ .unset := by
        rwa [← kind_terms, hterms hset, kind_terms]
      rw [List.rel_of_pairwise_cons h.terms hlater hnext, hterms hset]
  idle := .cons_cons hidle h.idle

/-- Whatever is written into a legal payload, it stays legal and bound to the same. -/
theorem steadfast_run {entry : Except SetError SetStatus × Payload} (hlegal : entry.2.Legal)
    (hbound : entry.1 = .ok .success → entry.2.kind ≠ .unset) (incoming : List Payload) :
    Steadfast (entry :: entry.2.writeAll incoming) := by
  induction incoming generalizing entry with
  | nil => exact .singleton hlegal hbound
  | cons q rest ih =>
    have hnext : Steadfast (entry.2.write q :: (entry.2.write q).2.writeAll rest) :=
      ih (legal_write q hlegal) set_write
    exact hnext.cons hlegal hbound (terms_write q) write_idle

/-- From its first change on a payload that starts unset is bound. -/
theorem writeAll_steadfast (incoming : List Payload) :
    Steadfast ((.ok .sameValue, unset) :: unset.writeAll incoming) :=
  steadfast_run ⟨rfl, rfl⟩ (by nofun) incoming

/-- Bounds come with the first number and hold for every other one, whatever bounds it has. -/
example : unset.writeAll [unsigned ⟨.u8, 3, 1, 10⟩, unsigned ⟨.u8, 11, 0, 0⟩,
    unsigned ⟨.u8, 9, 0, 5⟩] = [(.ok .success, unsigned ⟨.u8, 3, 1, 10⟩),
    (.error (.range 11 1 10), unsigned ⟨.u8, 3, 1, 10⟩),
    (.ok .success, unsigned ⟨.u8, 9, 1, 10⟩)] := rfl

end Payload

end ValueTree
