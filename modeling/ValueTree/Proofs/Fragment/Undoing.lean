import ValueTree.Proofs.Fragment.Loading
import ValueTree.Proofs.Fragment.Unloading
import ValueTree.Proofs.Store.Instances

/-!
# Unloading after loading

Where nothing is there yet of what a fragment declares, loading puts the fragment beside what is
there. Its containers may take on keys, and still unloading takes away the fragment and no more.
-/

namespace ValueTree

namespace Fragment

variable {f : Fragment} {s t u : Store} {d x : Id}

/-- Nothing is there at or below an id that the fragment declares. -/
def Absent (f : Fragment) (s : Store) : Prop :=
  ∀ d x, f.Declares d → x.startsWith d = true → s.has x = false

theorem Absent.outside (h : f.Absent s) (hd : f.Declares d) (hx : s.has x = true) :
    x.startsWith d = false := by
  refine Bool.eq_false_iff.mpr fun hbelow => ?_
  rw [h d x hd hbelow] at hx
  cases hx

theorem absent_iff (h : s.WellFormed) : f.Absent s ↔
    (∀ d ∈ f.containers, s.subtree d.id = []) ∧ ∀ d ∈ f.values, s.subtree d.id = [] := by
  simp only [h.indexed.subtree_eq_nil_iff]
  constructor
  · exact fun habsent => ⟨fun d hd x => habsent d.id x (Or.inl ⟨d, hd, rfl⟩),
      fun d hd x => habsent d.id x (Or.inr ⟨d, hd, rfl⟩)⟩
  · rintro ⟨hcontainers, hvalues⟩ d x (⟨c, hc, rfl⟩ | ⟨v, hv, rfl⟩)
    · exact hcontainers c hc x
    · exact hvalues v hv x

/-- `t` is `s` and beside it no more than values of the fragment and what lies in its containers. -/
structure Beside (f : Fragment) (s t : Store) : Prop where
  wellFormed : t.WellFormed
  node? {x : Id} : s.has x = true → t.node? x = s.node? x
  schema? {x : Id} : s.has x = true → t.schema? x = s.schema? x
  own {x : Id} : t.has x = true → s.has x = true ∨ f.Sweeps t x ∨ f.DeclaresPlain x

namespace Beside

theorem refl (h : s.WellFormed) : f.Beside s s := ⟨h, fun _ => rfl, fun _ => rfl, Or.inl⟩

/-- What grows at an id of the fragment does not touch what was there before. -/
theorem grow (h : f.Beside s t) (habsent : f.Absent s) (hd : f.Declares d) (hu : u.WellFormed)
    (hgrown : t.GrownBelow u d)
    (hown : ∀ x, u.has x = true → t.has x = true ∨ f.Sweeps u x ∨ f.DeclaresPlain x) :
    f.Beside s u where
  wellFormed := hu
  node? hx := (hgrown.node? (habsent.outside hd hx)).trans (h.node? hx)
  schema? hx := (hgrown.schema? (habsent.outside hd hx)).trans (h.schema? hx)
  own {x} hx := by
    rcases hown x hx with hold | hnew
    · refine (h.own hold).imp_right (Or.imp_left ?_)
      rintro ⟨c, hc, hhas, hbelow⟩
      exact ⟨c, hc, hgrown.has hhas, hbelow⟩
    · exact Or.inr hnew

theorem declare {payload : Payload} {access : Access} (h : f.Beside s t) (habsent : f.Absent s)
    (hd : f.DeclaresContainer d ∨ f.DeclaresPlain d) :
    f.Beside s (t.declare d payload access).store := by
  have hdeclared : f.Declares d := hd.imp_right And.left
  refine h.grow habsent hdeclared (h.wellFormed.declare ..) .declare fun x hx => ?_
  by_cases hne : d = x
  · subst hne
    exact Or.inr (hd.imp_left fun hc => ⟨d, hc, hx, d.startsWith_self⟩)
  · rw [Store.has, Store.node?_declare_ne hne] at hx
    exact Or.inl hx

theorem putSchema {schema : Schema} (h : f.Beside s t) (habsent : f.Absent s)
    (hd : f.DeclaresContainer schema.id) (hkind : t.kind? schema.id = some .container) :
    f.Beside s (t.putSchema schema) :=
  h.grow habsent (Or.inl hd) (h.wellFormed.putSchema hkind) .putSchema fun _ hx => Or.inl hx

theorem addKey {key : String} {origin : Origin} (h : f.Beside s t) (habsent : f.Absent s)
    (hchecked : t.Checked) (hd : f.DeclaresContainer d) (hplain : d.isWildcard = false)
    (hhas : t.has d = true) : f.Beside s (t.addKey d key origin).store := by
  have hgrown : t.GrownBelow (t.addKey d key origin).store d :=
    h.wellFormed.grownBelow_addKey hchecked hplain
  refine h.grow habsent (Or.inl hd) (h.wellFormed.addKey ..) hgrown fun x hx => ?_
  cases hbelow : x.startsWith d with
  | true => exact Or.inr (Or.inl ⟨d, hd, hgrown.has hhas, hbelow⟩)
  | false =>
    rw [Store.has, hgrown.node? hbelow] at hx
    exact Or.inl hx

/-- What was there is spared for its own sake. Beside it there is only what is swept, and values of
the fragment with nothing else below them. -/
theorem spares_iff (h : f.Beside s t) (habsent : f.Absent s) :
    t.has x = true ∧ f.Spares t x ↔ s.has x = true := by
  constructor
  · rintro ⟨hx, houtside, y, hy, hbelow, hyOutside, hyOther⟩
    have hys : s.has y = true := (h.own hy).resolve_right (not_or.mpr ⟨hyOutside, hyOther⟩)
    rcases h.own hx with hx | hswept | hplain
    · exact hx
    · exact absurd hswept houtside
    · rw [habsent.outside (Or.inr hplain.1) hys] at hbelow
      cases hbelow
  · intro hx
    have hthere : t.has x = true := by rwa [Store.has, h.node? hx]
    have houtside : ¬f.Sweeps t x := by
      rintro ⟨c, hc, -, hbelow⟩
      rw [habsent.outside (Or.inl hc) hx] at hbelow
      cases hbelow
    refine ⟨hthere, houtside, x, hthere, x.startsWith_self, houtside, fun hplain => ?_⟩
    exact Id.ne_of_not_startsWith (habsent.outside (Or.inr hplain.1) hx) rfl

end Beside

/-- The change is a new key for a container of the fragment whose id has no wildcard. -/
def AddsKey (f : Fragment) (change : Change) : Prop :=
  ∃ c key origin, change = .addKey c key origin ∧ f.DeclaresContainer c ∧ c.isWildcard = false

end Fragment

namespace Quiet

open Fragment

variable {q p : Quiet} {f : Fragment} {own s : Store}

theorem beside_load (h : q.store.WellFormed) (habsent : f.Absent q.store) :
    f.Beside q.store (q.attempt f.load).2.store := by
  refine load_keeps (P := f.Beside q.store) ?_ ?_ ?_ (.refl h)
  · intro t schema hd ht
    exact ht.declare habsent (Or.inl hd)
  · intro t schema hd _ ht hkind
    exact ht.putSchema habsent hd hkind
  · intro t value hd ht _
    exact ht.declare habsent (Or.inr hd)

theorem beside_addKeys {adds : List Change} (hadds : ∀ change ∈ adds, f.AddsKey change)
    (habsent : f.Absent s) (h : f.Beside s q.store) (hchecked : q.store.Checked)
    (hhas : ∀ c, f.DeclaresContainer c → q.store.has c = true) :
    f.Beside s (q.after adds).store := by
  refine (after_keeps (P := fun q => f.Beside s q.store ∧ q.store.Checked ∧
    ∀ c, f.DeclaresContainer c → q.store.has c = true) ?_ ⟨h, hchecked, hhas⟩).1
  rintro change hmem q ⟨h, hchecked, hhas⟩
  obtain ⟨c, key, origin, rfl, hc, hplain⟩ := hadds change hmem
  refine ⟨h.addKey habsent hchecked hc hplain (hhas c hc), checked_step hchecked _, ?_⟩
  intro other hother
  exact (h.wellFormed.grownBelow_addKey hchecked hplain).has (hhas other hother)

/-- Of a fragment beside other things unloading leaves the other things. -/
theorem unload_beside (hs : s.WellFormed) (habsent : f.Absent s) (h : f.Beside s q.store)
    (hown : f.alone = .ok own) :
    ∃ p, q.attempt f.unload = (.ok (), p) ∧ p.store = s := by
  obtain ⟨p, hrun, hpruned, hleft⟩ := attempt_unload h.wellFormed hown
  have hhas (x : Id) : p.store.has x = true ↔ s.has x = true :=
    (hleft x).trans (h.spares_iff habsent)
  have hgone {x : Id} (hx : s.has x = false) : p.store.has x = false :=
    Bool.eq_false_iff.mpr (mt (hhas x).mp (Bool.eq_false_iff.mp hx))
  refine ⟨p, hrun, Store.ext_parts (fun x => ?_) (fun x => ?_) fun x => ?_⟩
  · cases hx : s.has x with
    | true =>
      obtain ⟨node, hnode⟩ := Store.has_eq_true.mp hx
      rw [hpruned.node? ((hhas x).mpr hx), h.node? hx, hnode, Option.map_some,
        Node.retain_eq_self fun key hkey => (hhas _).mpr (hs.keys_have hnode hkey)]
    | false => rw [Store.has_eq_false.mp hx, Store.has_eq_false.mp (hgone hx)]
  · rw [hpruned.index_iff, hs.index_iff, hhas]
  · rw [hpruned.schema?]
    cases hx : s.has x with
    | true => rw [if_pos ((hhas x).mpr hx), h.schema? hx]
    | false => rw [hgone hx, if_neg Bool.false_ne_true, hs.schema?_of_not_has hx]

/-- Where there is nothing yet of what a fragment declares, it can be loaded, and unloading it
brings back the store as it was, even if containers of the fragment have taken on keys. -/
theorem unload_restores (changes : List Change) (hfits : f.Fits)
    (habsent : f.Absent (Quiet.after {} changes).store) :
    let q := Quiet.after {} changes
    ∃ p, q.attempt f.load = (.ok (), p) ∧
      ∀ adds : List Change, (∀ change ∈ adds, f.AddsKey change) →
        ∃ p', (p.after adds).attempt f.unload = (.ok (), p') ∧ p'.store = q.store := by
  intro q
  obtain ⟨own, hown⟩ := fits_iff.mp hfits
  have h : q.store.WellFormed := wellFormed_run Store.wellFormed_empty changes
  have hchecked : q.store.Checked := checked_run (fun x schema hx => by simp at hx) changes
  obtain ⟨p, hrun⟩ := load_isOk h hown fun c kind hc hkind => by
    obtain ⟨node, hnode, -⟩ := Store.kind?_eq_some.mp hkind
    have houtside := habsent.outside (Or.inl hc) (Store.has_eq_true.mpr ⟨node, hnode⟩)
    exact absurd rfl (Id.ne_of_not_startsWith houtside)
  refine ⟨p, hrun, fun adds hadds => ?_⟩
  have hbeside := beside_load h habsent
  have hloaded := (MadeOfChanges.load f).keeps (P := fun q => q.store.Checked)
    (fun change _ h => checked_step h change) hchecked
  rw [hrun] at hbeside hloaded
  obtain ⟨own', hown', hprovides⟩ := load_provides h hrun
  obtain rfl : own = own' := Except.ok.inj (hown.symm.trans hown')
  refine unload_beside h habsent (beside_addKeys hadds habsent hbeside hloaded fun c hc => ?_) hown
  obtain ⟨schema, hmem, rfl⟩ := (alone_of_eq_ok hown).declaresContainer_iff.mp hc
  obtain ⟨order, keys, hnode⟩ := (hprovides.hosts schema hmem).exists_node
  exact Store.has_eq_true.mpr ⟨_, hnode⟩

/-- Next to values of somebody else, with a key that starts from a template in between. -/
theorem unload_restores_lamps :
    let lamps : Id := ⟨["room", "lamps"]⟩
    let f : Fragment := {
      containers := [⟨lamps, true, [⟨(lamps.child "+").child "on", .readWrite, .bool false⟩]⟩]
      values := [⟨⟨["room", "mode"]⟩, .readOnly, .bool true⟩] }
    let q := Quiet.after {} [
      .declareContainer ⟨⟨["room"]⟩, .ordered, []⟩, .addKey ⟨["room"]⟩ "a" .local]
    f.Fits ∧ f.Absent q.store ∧ f.AddsKey (.addKey lamps "k" .local) ∧
      ∃ p, q.attempt f.load = (.ok (), p) ∧
        ∃ p', (p.after [.addKey lamps "k" .local]).attempt f.unload = (.ok (), p') ∧
          p'.store = q.store := by
  intro lamps f q
  have hfits : f.Fits := rfl
  have habsent : f.Absent q.store :=
    (absent_iff (wellFormed_run Store.wellFormed_empty _)).mpr (by decide +kernel)
  have hadds : f.AddsKey (.addKey lamps "k" .local) :=
    ⟨lamps, "k", .local, rfl, by decide, by decide⟩
  obtain ⟨p, hrun, hundone⟩ := unload_restores _ hfits habsent
  exact ⟨hfits, habsent, hadds, p, hrun, hundone _ fun _ hmem => List.mem_singleton.mp hmem ▸ hadds⟩

end Quiet

end ValueTree
