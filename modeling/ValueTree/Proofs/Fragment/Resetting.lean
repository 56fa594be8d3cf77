import ValueTree.Proofs.Fragment.Reloading

/-!
# What reloading makes of values

Reloading declares every value of a fragment again, and a declaration is a typed assignment: what it
replaces is the value and not what the target has of its own. So a value holds afterwards what the
fragment says, within the bounds, the enumerators and, for the same items, the order of what it held
before.
-/

namespace ValueTree

namespace Payload

/-- A payload that another one of its kind was assigned to. The bounds of an integer, the enumerators
of an enumeration and the order of a set that has all its items already are its own. -/
def resetTo : Payload → Payload → Payload
  | signed target, signed declared => signed { target with value := declared.value }
  | unsigned target, unsigned declared => unsigned { target with value := declared.value }
  | enum target, enum declared => enum { target with value := declared.value }
  | unorderedSet kept, unorderedSet items => unorderedSet (if sameItems kept items then kept else items)
  | _, declared => declared

theorem eq_of_assignCollection {p q r : Payload} {status : SetStatus} (hnormal : q.normalize = q)
    (hsame : sameCollection p q = true → p = q) (h : assignCollection p q = (status, r)) : r = q := by
  unfold assignCollection at h
  rw [hnormal] at h
  split at h
  · exact (Prod.mk.inj h).2.symm.trans (hsame ‹_›)
  · exact (Prod.mk.inj h).2.symm

theorem eq_resetTo_of_assignSameKind {p q r : Payload} {status : SetStatus} (hlegal : q.Legal)
    (hkind : p.kind = q.kind) (hplain : q.kind ≠ .container)
    (h : assignSameKind p q = .ok (status, r)) : r = p.resetTo q := by
  cases p with
  | set _ | vector _ =>
    refine eq_of_assignCollection hlegal.2 (fun hsame => ?_) (Except.ok.inj h)
    exact of_decide_eq_true hsame
  | unorderedSet kept =>
    cases q with
    | unorderedSet items =>
      have h := Except.ok.inj h
      unfold assignCollection at h
      rw [hlegal.2, sameCollection] at h
      rw [resetTo]
      split at h
      · rw [if_pos ‹_›]
        exact (Prod.mk.inj h).2.symm
      · rw [if_neg ‹_›]
        exact (Prod.mk.inj h).2.symm
    | _ => cases hkind
  | signed target =>
    obtain ⟨source, rfl, rfl⟩ := assignSameKind_signed h
    rfl
  | unsigned target =>
    obtain ⟨source, rfl, rfl⟩ := assignSameKind_unsigned h
    rfl
  | enum target =>
    cases q with
    | enum source => exact assignSameKind_enum h
    | _ => cases hkind
  | struct =>
    obtain ⟨-, rfl⟩ := Prod.mk.inj (Except.ok.inj h)
    cases q with
    | struct => rfl
    | _ => cases hkind
  | container order => exact absurd hkind.symm hplain
  | _ => exact eq_of_assignPlain (Except.ok.inj h)

theorem eq_resetTo_of_assign {p q r : Payload} {status : SetStatus} (hlegal : q.Legal)
    (hplain : q.kind ≠ .container) (h : p.assign q = .ok (status, r)) : r = p.resetTo q := by
  unfold assign at h
  split at h
  · rename_i hp
    obtain rfl := eq_unset_of_kind hp
    split at h
    · rename_i hq
      exact (Prod.mk.inj (Except.ok.inj h)).2.symm.trans (eq_unset_of_kind hq).symm
    · rw [hlegal.1, hlegal.2] at h
      exact (Prod.mk.inj (Except.ok.inj h)).2.symm
  · split at h
    · cases h
    · exact eq_resetTo_of_assignSameKind hlegal (Decidable.not_not.mp ‹_›) hplain h

end Payload

namespace Store

/-- `t` is `s` with these values declared once more. -/
structure Restated (s t : Store) (values : List Value) : Prop where
  wellFormed : t.WellFormed
  value {value : Value} : value ∈ values → t.node? value.id =
    some ⟨{ value with payload := (s.found value.id).resetTo value.payload }, s.keysAt value.id⟩
  kept {x : Id} : (∀ value ∈ values, value.id ≠ x) → t.node? x = s.node? x
  schema? (x : Id) : t.schema? x = s.schema? x

theorem Restated.nil {s : Store} (h : s.WellFormed) : s.Restated s [] where
  wellFormed := h
  value := nofun
  kept _ := rfl
  schema? _ := rfl

end Store

namespace Quiet

open Fragment

variable {q p : Quiet} {f : Fragment} {own : Store}

theorem restated_snoc {s : Store} {done : List Value} {value : Value}
    (h : s.Restated q.store done) (hlegal : value.payload.Legal) (hplain : value.kind ≠ .container)
    (hfresh : ∀ earlier ∈ done, earlier.id ≠ value.id)
    (hrun : q.attempt (do
      let _ ← ExceptT.mk (Host.declare value.id value.payload value.access)) = (.ok (), p)) :
    s.Restated p.store (done ++ [value]) := by
  obtain ⟨_, hok, rfl⟩ := declare_eq_ok.mp hrun
  obtain ⟨_, payload, hassign, hnode⟩ := h.wellFormed.node?_declared hok
  have hbefore := h.kept hfresh
  rw [Store.found_congr hbefore] at hassign
  obtain rfl := Payload.eq_resetTo_of_assign hlegal hplain hassign
  constructor
  case wellFormed =>
    exact h.wellFormed.declare ..
  case value =>
    intro other hmem
    rcases List.mem_append.mp hmem with hmem | hmem
    · rw [hnode, if_neg (hfresh other hmem).symm]
      exact h.value hmem
    · obtain rfl := List.mem_singleton.mp hmem
      rw [hnode, if_pos rfl, Store.keysAt, hbefore, ← Store.keysAt]
  case kept =>
    intro x hother
    obtain ⟨hdone, hlast⟩ := List.forall_mem_append.mp hother
    rw [hnode, if_neg (hlast value (List.mem_singleton.mpr rfl))]
    exact h.kept hdone
  case schema? =>
    exact fun x => Store.schema?_declare.trans (h.schema? x)

theorem declareValues_cases {result : Except StoreError Unit} (halone : f.Alone own)
    (h : q.store.WellFormed)
    (hrun : q.attempt ((plainValues own).forM fun value => do
      let _ ← ExceptT.mk (Host.declare value.id value.payload value.access)) = (result, p)) :
    result = .ok () ∧ q.store.Restated p.store (plainValues own) ∨ ∃ e, result = .error e ∧
      Stops (plainValues own) (fun value => do
        let _ ← ExceptT.mk (Host.declare value.id value.payload value.access))
        (fun done p' => q.store.Restated p'.store done) e p := by
  refine forM_cases (P := fun done p => q.store.Restated p.store done) ?_ (.nil h) hrun
  intro done value rest hsplit p p' hp hstep
  have hmem : value ∈ plainValues own := by simp [hsplit]
  exact restated_snoc hp (halone.legal_plainValue hmem) (halone.mem_plainValues.mp hmem).2
    (fun earlier hearlier => halone.fresh_plainValue hsplit hearlier) hstep

/-- After a reload that is not refused each value has the access mode that is declared for it, and
the payload in the terms of what it held before, if it did not go with an instance. -/
theorem reload_resets (changes : List Change)
    (hrun : (Quiet.after {} changes).attempt f.reload = (.ok (), p)) :
    let s := (Quiet.after {} changes).store
    ∃ own, f.alone = .ok own ∧ ∀ x, f.DeclaresPlain x → ∃ declared, own.get? x = some declared ∧
      p.store.get? x = some { declared with
        payload := Payload.resetTo (if f.Wipes s x then .unset else s.found x)
          declared.payload } := by
  have h : (Quiet.after {} changes).store.WellFormed :=
    wellFormed_run Store.wellFormed_empty changes
  obtain ⟨own, _, hlift, hstages⟩ := attempt_bind_eq_ok.mp hrun
  obtain ⟨hown, rfl⟩ := Prod.mk.inj hlift
  have halone := alone_of_eq_ok hown
  obtain ⟨_, q', hcontainers, hvalues⟩ := attempt_bind_eq_ok.mp hstages
  obtain ⟨-, hemptied⟩ | ⟨e, hrefused, -⟩ := reloadContainers_cases halone h hcontainers
  case inr => cases hrefused
  obtain ⟨-, hrestated⟩ | ⟨e, hrefused, -⟩ := declareValues_cases halone hemptied.wellFormed hvalues
  case inr => cases hrefused
  refine ⟨own, hown, fun x hx => ?_⟩
  obtain ⟨declared, hmem, rfl⟩ := halone.declaresPlain_iff.mp hx
  refine ⟨declared, (halone.mem_plainValues.mp hmem).1, ?_⟩
  have hother : ∀ schema ∈ own.schemas, schema.id ≠ declared.id :=
    fun schema hschema => (halone.plainValue_ne hmem hschema).symm
  have hfound : q'.store.found declared.id =
      if f.Wipes (Quiet.after {} changes).store declared.id then .unset
      else (Quiet.after {} changes).store.found declared.id := by
    split
    · rename_i hwiped
      exact Store.found_of_none (hemptied.gone hother (halone.cleared_iff.mpr hwiped))
    · rename_i hout
      exact Store.found_congr (hemptied.kept hother (mt halone.cleared_iff.mp hout)).1
  rw [Store.get?, hrestated.value hmem, hfound]
  rfl

/-- The number is put back within its own bounds, and a text that went with an instance comes back as
it is declared. -/
theorem reload_resets_speed :
    let speed : Id := ⟨["speed"]⟩
    let title : Id := ⟨["rooms", "a", "title"]⟩
    let f : Fragment := {
      containers := [⟨⟨["rooms"]⟩, true, []⟩]
      values := [⟨speed, .readOnly, .unsigned ⟨.u8, 3, 1, 10⟩⟩, ⟨title, .readWrite, .text "A"⟩] }
    let q := Quiet.after {} [
      .declare speed (.unsigned ⟨.u8, 7, 0, 0⟩) .readWrite,
      .declareContainer ⟨⟨["rooms"]⟩, .ordered, []⟩, .addKey ⟨["rooms"]⟩ "a" .local,
      .declare title (.text "B") .readWrite]
    ∃ p, q.attempt f.reload = (.ok (), p) ∧
      p.store.get? speed = some ⟨speed, .readOnly, .unsigned ⟨.u8, 3, 0, 0⟩⟩ ∧
        p.store.get? title = some ⟨title, .readWrite, .text "A"⟩ := by
  intro speed title f q
  obtain ⟨p, hrun⟩ : ∃ p, q.attempt f.reload = (.ok (), p) := attempt_eq_ok (by decide +kernel)
  obtain ⟨own, hown, hreset⟩ := reload_resets _ hrun
  have hget (x : Id) : own.get? x = (f.alone.toOption.bind (·.get? x)) := by rw [hown]; rfl
  obtain ⟨declared, hspeed, hspeed'⟩ := hreset speed (by decide +kernel)
  obtain ⟨declared', htitle, htitle'⟩ := hreset title (by decide +kernel)
  rw [hget] at hspeed htitle
  have hspeed : declared = ⟨speed, .readOnly, .unsigned ⟨.u8, 3, 1, 10⟩⟩ :=
    Option.some.inj (hspeed.symm.trans (by decide +kernel))
  have htitle : declared' = ⟨title, .readWrite, .text "A"⟩ :=
    Option.some.inj (htitle.symm.trans (by decide +kernel))
  refine ⟨p, hrun, hspeed'.trans ?_, htitle'.trans ?_⟩
  · rw [hspeed]
    decide +kernel
  · rw [htitle]
    decide +kernel

/-- The bounds of the fragment come only to a value that has none of its own yet. -/
theorem reload_keeps_bounds :
    let n : Id := ⟨["n"]⟩
    let f : Fragment := { values := [⟨n, .readWrite, .unsigned ⟨.u8, 3, 1, 10⟩⟩] }
    let q := Quiet.after {} [.set n (.unsigned ⟨.u8, 3, 0, 0⟩) .local]
    (q.attempt f.reload).1.toOption = some () ∧ f.DeclaresPlain n ∧
      f.alone.toOption.bind (·.payload? n) = some (.unsigned ⟨.u8, 3, 1, 10⟩) ∧
        (q.attempt f.reload).2.store.payload? n = some (.unsigned ⟨.u8, 3, 0, 0⟩) := by
  decide +kernel

end Quiet

end ValueTree
