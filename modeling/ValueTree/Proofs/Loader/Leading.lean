import Mathlib.Data.Finite.Prod
import Mathlib.Logic.Relation
import Mathlib.Order.WellFounded
import ValueTree.Loader
import ValueTree.Proofs.Fragment.Alone

/-!
# Where files lead

A file may send a loader to another one: it declares the value that names the file to work on. A tree
of files has only so many of them, so a loader that goes from one to the next for ever comes back to
one where it has been.
-/

namespace ValueTree

namespace Loader

/-- Who declares these values one after the other gives a loader the file `y` while it is told to
overwrite. -/
structure Redirects (l : Loader) (values : List Value) (y : String) : Prop where
  file : ∃ v ∈ values, v.id = l.fileId ∧ v.payload = .text y
  action {v : Value} : v ∈ values → v.id = l.actionId →
    ∃ e, v.payload = .enum e ∧ e.value = LoaderAction.overwrite.code

/-- A loader that overwrites from `x` goes on to another file `y`. -/
structure Leads (l : Loader) (files : FileTree) (x y : String) : Prop where
  named : x ≠ ""
  other : y ≠ x
  fragment : ∃ f own, Fragment.read files (l.resolve x) = .ok f ∧ f.alone = .ok own ∧
    l.Redirects (Fragment.plainValues own) y

/-- The file that a document leads to, wherever the document may lie. -/
def target? (l : Loader) (bytes : List UInt8) : Option String := do
  let text ← Utf8.toString? bytes
  let f ← (Fragment.parse text).toOption
  let own ← f.alone.toOption
  (own.get? l.fileId).bind (·.payload.text?)

/-- All files that a loader may be sent to. -/
def targets (l : Loader) (files : FileTree) : List String :=
  files.entries.filterMap fun entry =>
    match entry.2 with
    | .file bytes => l.target? bytes
    | .directory => none

variable {l : Loader} {files : FileTree} {x y : String}

/-- An action that is declared before changes nothing if it says to overwrite. -/
theorem Redirects.cons {v : Value} {rest : List Value}
    (h : l.Redirects rest y) (hv : v.id = l.actionId →
      ∃ e, v.payload = .enum e ∧ e.value = LoaderAction.overwrite.code) :
    l.Redirects (v :: rest) y where
  file := by
    obtain ⟨w, hw, hfile⟩ := h.file
    exact ⟨w, List.mem_cons_of_mem _ hw, hfile⟩
  action hw hid := by
    rcases List.mem_cons.mp hw with rfl | hw
    · exact hv hid
    · exact h.action hw hid

theorem exists_entry {path text : String} (h : files.readText path = .ok text) :
    ∃ steps bytes, (steps, .file bytes) ∈ files.entries ∧ Utf8.toString? bytes = some text := by
  unfold FileTree.readText at h
  split at h
  · cases h
  · rename_i bytes hread
    split at h
    · rename_i text hbytes
      cases h
      unfold FileTree.read at hread
      split at hread
      · cases hread
      · rename_i place _
        split at hread
        · rename_i found hnode
          cases hread
          cases place with
          | around => cases hnode
          | inside steps =>
            simp only [FileTree.nodeAt?, FileTree.node?] at hnode
            split at hnode
            · cases hnode
            · obtain ⟨before, after, hentries, -⟩ := List.lookup_eq_some_iff.mp hnode
              exact ⟨steps, bytes, by simp [hentries], hbytes⟩
        · cases hread
        · cases hread
    · cases h

theorem readText_of_read {path : String} {f : Fragment} (h : Fragment.read files path = .ok f) :
    ∃ text, files.readText path = .ok text ∧ Fragment.parse text = .ok f := by
  unfold Fragment.read Fragment.ofContent at h
  split at h
  · cases h
  · cases h
  · rename_i text htext
    refine ⟨text, htext, ?_⟩
    cases hparse : Fragment.parse text <;> simp_all [Except.mapError]

theorem Leads.mem_targets (h : l.Leads files x y) : y ∈ l.targets files := by
  obtain ⟨f, own, hread, hown, hfile, -⟩ := h.fragment
  obtain ⟨v, hv, hid, hpayload⟩ := hfile
  have hget : own.get? l.fileId = some v :=
    hid ▸ ((Fragment.alone_of_eq_ok hown).mem_plainValues.mp hv).1
  obtain ⟨text, htext, hparse⟩ := readText_of_read hread
  obtain ⟨steps, bytes, hentry, hbytes⟩ := exists_entry htext
  refine List.mem_filterMap.mpr ⟨_, hentry, ?_⟩
  simp [target?, hbytes, hparse, hown, hget, hpayload, Except.toOption, Payload.text?]

/-- A loader that never comes back to a file where it was does not go on for ever. -/
theorem wellFounded_leads (h : ∀ x, ¬Relation.TransGen (l.Leads files) x x) :
    WellFounded fun y x => l.Leads files x y := by
  have hfinite : Finite {y // y ∈ l.targets files} := (l.targets files).finite_toSet
  let below (y x : {y // y ∈ l.targets files}) : Prop := Relation.TransGen (l.Leads files) x y
  have hbelow : WellFounded below :=
    have : IsTrans _ below := ⟨fun _ _ _ hab hbc => hbc.trans hab⟩
    have : Std.Irrefl below := ⟨fun y => h y⟩
    Finite.wellFounded_of_trans_of_irrefl below
  have htarget (y : {y // y ∈ l.targets files}) : Acc (fun y x => l.Leads files x y) y.1 := by
    induction y using hbelow.induction with
    | _ y ih => exact ⟨_, fun z hz => ih ⟨z, hz.mem_targets⟩ (.single hz)⟩
  exact ⟨fun x => ⟨x, fun y hy => htarget ⟨y, hy.mem_targets⟩⟩⟩

end Loader

end ValueTree
