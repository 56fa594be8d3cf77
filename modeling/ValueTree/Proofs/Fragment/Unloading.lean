import ValueTree.Proofs.Fragment.Alone
import ValueTree.Proofs.Store.Pruning

/-!
# What unloading leaves

The containers of a fragment go with all that lies below them, and a value goes once nothing lies
below it any more. So an id stays if it, or something below it, is there for another reason than the
fragment.
-/

namespace ValueTree

namespace Store

variable {s : Store} {id : Id}

theorem result_remove (s : Store) (id : Id) (origin : Origin) :
    ∃ answer, (s.remove id origin).result = .ok answer := by
  unfold remove
  split
  · exact ⟨true, rfl⟩
  · exact ⟨false, rfl⟩

theorem WellFormed.hasChildren_iff (h : s.WellFormed) :
    s.hasChildren id = true ↔ ∃ y, s.has y = true ∧ y.startsWith id = true ∧ y ≠ id := by
  simp [hasChildren, h.indexed.mem_subtree_iff, and_assoc]

end Store

namespace Fragment

/-- The id lies at or below a container of the fragment that is there. -/
def Sweeps (f : Fragment) (s : Store) (x : Id) : Prop :=
  ∃ c, f.DeclaresContainer c ∧ s.has c = true ∧ x.startsWith c = true

/-- The id lies outside the containers of the fragment, and at it or below it is something that the
fragment does not declare as a value. -/
def Spares (f : Fragment) (s : Store) (x : Id) : Prop :=
  ¬f.Sweeps s x ∧
    ∃ y, s.has y = true ∧ y.startsWith x = true ∧ ¬f.Sweeps s y ∧ ¬f.DeclaresPlain y

instance (f : Fragment) (s : Store) (x : Id) : Decidable (f.Sweeps s x) :=
  inferInstanceAs (Decidable (∃ c, f.DeclaresContainer c ∧ s.has c = true ∧ x.startsWith c = true))

end Fragment

namespace Quiet

open Fragment

variable {q : Quiet} {f : Fragment} {own : Store}

theorem attempt_remove (id : Id) (origin : Origin) : ∃ answer,
    q.attempt (ExceptT.mk (Host.remove id origin)) =
      (.ok answer, (q.accept (q.store.remove id origin)).2) := by
  obtain ⟨answer, hanswer⟩ := q.store.result_remove id origin
  exact ⟨answer, congrArg (·, _) hanswer⟩

/-! ## Containers -/

theorem attempt_unloadContainer (h : q.store.WellFormed) (schema : Schema) :
    ∃ p, q.attempt (unloadContainer schema) = (.ok (), p) ∧
      p.store = (q.store.remove schema.id .local).store := by
  obtain ⟨answer, hremove⟩ := q.attempt_remove schema.id .local
  refine ⟨_, (attempt_bind_ok hremove).trans (attempt_dropSchema _), ?_⟩
  apply (h.remove ..).dropSchema_of_not_has
  rw [Bool.eq_false_iff, ne_eq, h.has_remove_iff]
  rintro ⟨hhas, hout⟩
  exact hout ⟨hhas, schema.id.startsWith_self⟩

theorem attempt_unloadContainers (h : q.store.WellFormed) (schemas : List Schema) :
    ∃ p, q.attempt (schemas.forM unloadContainer) = (.ok (), p) ∧
      p.store.WellFormed ∧ q.store.Pruned p.store ∧
      ∀ x, p.store.has x = true ↔ q.store.has x = true ∧
        ∀ schema ∈ schemas, q.store.has schema.id = true → x.startsWith schema.id = false := by
  induction schemas generalizing q with
  | nil => exact ⟨q, rfl, h, .refl h, by simp⟩
  | cons schema rest ih =>
    obtain ⟨q', hstep, hstore⟩ := attempt_unloadContainer h schema
    have h' : q'.store.WellFormed := hstore ▸ h.remove ..
    have hpruned : q.store.Pruned q'.store := hstore ▸ h.pruned_remove ..
    obtain ⟨p, hrest, hp, hpruned', hhas⟩ := ih h'
    refine ⟨p, (attempt_bind_ok hstep).trans hrest, hp, hpruned.trans hpruned', fun x => ?_⟩
    have hremove (y : Id) : q'.store.has y = true ↔
        q.store.has y = true ∧ ¬(q.store.has schema.id = true ∧ y.startsWith schema.id = true) := by
      rw [hstore, h.has_remove_iff]
    rw [hhas, hremove, List.forall_mem_cons, and_assoc]
    refine and_congr_right fun _ => ?_
    rw [not_and, Bool.not_eq_true]
    refine and_congr_right fun hout => forall₂_congr fun other _ => ?_
    -- A container that is gone already has taken with it all that it could have.
    refine ⟨fun hkeep hother => ?_, fun hkeep hother => hkeep ((hremove _).mp hother).1⟩
    refine Bool.eq_false_iff.mpr fun hbelow => ?_
    have hkept : q'.store.has other.id = true := by
      refine (hremove _).mpr ⟨hother, fun ⟨hschema, habove⟩ => ?_⟩
      exact Bool.eq_false_iff.mp (hout hschema) (Id.startsWith_trans hbelow habove)
    exact Bool.eq_false_iff.mp (hkeep hkept) hbelow

/-! ## Values -/

/-- The value goes, unless something lies below it. -/
theorem attempt_unloadValue (h : q.store.WellFormed) (value : Value) :
    ∃ p, q.attempt (unloadValue value) = (.ok (), p) ∧
      p.store.WellFormed ∧ q.store.Pruned p.store ∧
      ∀ x, p.store.has x = true ↔ q.store.has x = true ∧
        (x = value.id → q.store.hasChildren value.id = true) := by
  cases hremoves : q.store.has value.id && !q.store.hasChildren value.id with
  | true =>
    obtain ⟨answer, hremove⟩ := q.attempt_remove value.id .local
    refine ⟨(q.accept (q.store.remove value.id .local)).2, ?_, h.remove .., h.pruned_remove ..,
      fun x => ?_⟩
    · refine (attempt_bind_ok attempt_store).trans ?_
      rw [if_pos hremoves]
      exact attempt_bind_ok hremove
    · obtain ⟨hhas, hchildren⟩ := Bool.and_eq_true_iff.mp hremoves
      rw [Bool.not_eq_true'] at hchildren
      refine h.has_remove_iff.trans (and_congr_right fun hx => ?_)
      rw [hhas, hchildren]
      -- With nothing below it, the id goes alone.
      have hbelow (hx' : x.startsWith value.id = true) : x = value.id := by
        refine Decidable.not_not.mp fun hne => ?_
        exact Bool.eq_false_iff.mp hchildren (h.hasChildren_iff.mpr ⟨x, hx, hx', hne⟩)
      constructor
      · rintro hout rfl
        exact absurd ⟨rfl, Id.startsWith_self _⟩ hout
      · rintro hne ⟨-, hx⟩
        exact Bool.false_ne_true (hne (hbelow hx))
  | false =>
    refine ⟨q, ?_, h, .refl h, fun x => ?_⟩
    · refine (attempt_bind_ok attempt_store).trans ?_
      rw [hremoves]
      rfl
    · refine (and_iff_left_of_imp ?_).symm
      rintro hx rfl
      simpa [hx] using hremoves

/-- Of the values those stay that have something below them that is no such value. The values come
children first. -/
theorem attempt_unloadValues (h : q.store.WellFormed) {values : List Value}
    (horder : values.Pairwise fun a b => b.id.startsWith a.id = false) :
    ∃ p, q.attempt (values.forM unloadValue) = (.ok (), p) ∧ q.store.Pruned p.store ∧
      ∀ x, p.store.has x = true ↔ q.store.has x = true ∧
        ∃ y, q.store.has y = true ∧ y.startsWith x = true ∧ ∀ value ∈ values, value.id ≠ y := by
  induction values generalizing q with
  | nil =>
    refine ⟨q, rfl, .refl h, fun x => (and_iff_left_of_imp fun hx => ?_).symm⟩
    exact ⟨x, hx, x.startsWith_self, nofun⟩
  | cons value rest ih =>
    obtain ⟨hlater, hrestOrder⟩ := List.pairwise_cons.mp horder
    obtain ⟨q', hstep, h', hpruned, hfirst⟩ := attempt_unloadValue h value
    obtain ⟨p, hrest, hpruned', hhas⟩ := ih h' hrestOrder
    refine ⟨p, (attempt_bind_ok hstep).trans hrest, hpruned.trans hpruned', fun x => ?_⟩
    rw [hhas]
    constructor
    · rintro ⟨hx, y, hy, hbelow, hother⟩
      refine ⟨((hfirst x).mp hx).1, ?_⟩
      obtain ⟨hy, hkept⟩ := (hfirst y).mp hy
      by_cases hne : y = value.id
      · -- The value stays because of an id below it, and the later values lie elsewhere.
        obtain ⟨z, hz, hzy, hzne⟩ := h.hasChildren_iff.mp (hkept hne)
        refine ⟨z, hz, Id.startsWith_trans hzy (hne ▸ hbelow), ?_⟩
        refine List.forall_mem_cons.mpr ⟨hzne.symm, ?_⟩
        rintro later hmem rfl
        exact Bool.eq_false_iff.mp (hlater later hmem) hzy
      · exact ⟨y, hy, hbelow, List.forall_mem_cons.mpr ⟨Ne.symm hne, hother⟩⟩
    · rintro ⟨hx, y, hy, hbelow, hother⟩
      obtain ⟨hne, hother⟩ := List.forall_mem_cons.mp hother
      refine ⟨(hfirst x).mpr ⟨hx, ?_⟩, y, (hfirst y).mpr ⟨hy, fun hsame => ?_⟩, hbelow, hother⟩
      · rintro rfl
        exact h.hasChildren_iff.mpr ⟨y, hy, hbelow, hne.symm⟩
      · exact absurd hsame.symm hne

/-! ## The whole fragment -/

theorem attempt_unload (h : q.store.WellFormed) (hown : f.alone = .ok own) :
    ∃ p, q.attempt f.unload = (.ok (), p) ∧ q.store.Pruned p.store ∧
      ∀ x, p.store.has x = true ↔ q.store.has x = true ∧ f.Spares q.store x := by
  have halone := alone_of_eq_ok hown
  obtain ⟨q', hcontainers, h', hpruned, hfirst⟩ := attempt_unloadContainers h own.schemas
  obtain ⟨p, hvalues, hpruned', hhas⟩ :=
    attempt_unloadValues h' (List.pairwise_reverse.mpr halone.pairwise_plainValues)
  refine ⟨p, ?_, hpruned.trans hpruned', fun x => ?_⟩
  · refine (attempt_bind_ok (attempt_lift hown)).trans ?_
    exact (attempt_bind_ok hcontainers).trans hvalues
  · have hswept (x : Id) : q'.store.has x = true ↔ q.store.has x = true ∧ ¬f.Sweeps q.store x := by
      rw [hfirst, Sweeps]
      refine and_congr_right fun _ => ?_
      simp [halone.declaresContainer_iff]
    have hplain (y : Id) :
        (∀ value ∈ (plainValues own).reverse, value.id ≠ y) ↔ ¬f.DeclaresPlain y := by
      simp [halone.declaresPlain_iff]
    simp only [hhas, hswept, hplain, Spares, and_assoc]
    simp only [and_left_comm]

/-- Unloading is not refused. Of what is there it leaves what the fragment spares, as it is but for
the keys whose instances went, and no schemas but those of containers that are still there. -/
theorem unload_leaves (changes : List Change) (hfits : f.Fits) :
    let q := Quiet.after {} changes
    ∃ p, q.attempt f.unload = (.ok (), p) ∧ q.store.Pruned p.store ∧
      ∀ x, p.store.has x = true ↔ q.store.has x = true ∧ f.Spares q.store x := by
  obtain ⟨own, hown⟩ := fits_iff.mp hfits
  exact attempt_unload (wellFormed_run Store.wellFormed_empty changes) hown

/-- A value with a note of somebody else below it stays, and a value without one goes. A container
goes with what it holds. -/
theorem unload_leaves_note :
    let lamps : Id := ⟨["room", "a", "lamps"]⟩
    let mode : Id := ⟨["room", "a", "mode"]⟩
    let title : Id := ⟨["room", "a", "title"]⟩
    let f : Fragment := {
      containers := [⟨lamps, true, []⟩]
      values := [⟨mode, .readWrite, .bool true⟩, ⟨title, .readOnly, .text "A"⟩] }
    let q := Quiet.after {} [
      .declareContainer ⟨⟨["room"]⟩, .ordered, []⟩, .addKey ⟨["room"]⟩ "a" .local,
      .declareContainer ⟨lamps, .ordered, []⟩, .addKey lamps "k" .remote,
      .declare mode (.bool false) .readWrite, .declare (mode.child "note") .struct .readOnly,
      .declare title (.text "B") .readOnly]
    f.Fits ∧ ∃ p, q.attempt f.unload = (.ok (), p) ∧
      p.store.has mode = true ∧ p.store.has title = false ∧
        p.store.has (lamps.child "k") = false := by
  intro lamps mode title f q
  have hfits : f.Fits := rfl
  obtain ⟨p, hrun, -, hhas⟩ := unload_leaves _ hfits
  refine ⟨hfits, p, hrun, (hhas _).mpr ?_, ?_, ?_⟩
  · refine ⟨by decide +kernel, by decide +kernel, mode.child "note", ?_⟩
    decide +kernel
  · refine Bool.eq_false_iff.mpr fun htitle => ?_
    obtain ⟨-, -, y, hy, hbelow, -, hother⟩ := (hhas _).mp htitle
    have hchildless : q.store.hasChildren title = false := by decide +kernel
    have hwf : q.store.WellFormed := wellFormed_run Store.wellFormed_empty _
    obtain rfl : y = title := Decidable.not_not.mp fun hne =>
      Bool.eq_false_iff.mp hchildless (hwf.hasChildren_iff.mpr ⟨y, hy, hbelow, hne⟩)
    exact hother (by decide)
  · refine Bool.eq_false_iff.mpr fun hkey => ?_
    obtain ⟨-, houtside, -⟩ := (hhas _).mp hkey
    revert houtside
    decide +kernel

end Quiet

end ValueTree
