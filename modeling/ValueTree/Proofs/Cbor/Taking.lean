import ValueTree.Proofs.Cbor.Heads

/-!
# What readers take and give

Whatever bytes a reader is given: what it gives back is made of a front of them, so that nothing in
it is larger than they are.
-/

namespace ValueTree.Cbor

variable {α β : Type} {limit cost : Nat} {r : Reader α} {P : α → Prop} {Q : β → Prop}

/-- From less than `limit` bytes a reader takes at least `cost` of them, and gives what is asked
for. -/
def Gives (limit cost : Nat) (r : Reader α) (P : α → Prop) : Prop :=
  ∀ depth bytes a rest, bytes.length < limit → r depth bytes = some (a, rest) →
    rest.length + cost ≤ bytes.length ∧ P a

namespace Gives

theorem pure {a : α} (h : P a) : Gives limit 0 (Pure.pure a) P := by
  intro depth bytes b rest _ hread
  cases hread
  exact ⟨Nat.le_refl _, h⟩

theorem bind {next : α → Reader β} (hr : Gives limit cost r P)
    (hnext : ∀ a, P a → Gives limit 0 (next a) Q) : Gives limit cost (r >>= next) Q := by
  intro depth bytes b rest hlimit hread
  obtain ⟨a, left, ha, hb⟩ := Reader.bind_eq_some.mp hread
  obtain ⟨hleft, hP⟩ := hr depth bytes a left hlimit ha
  obtain ⟨hrest, hQ⟩ := hnext a hP depth left b rest (by omega) hb
  exact ⟨by omega, hQ⟩

theorem imp {P' : α → Prop} (hr : Gives limit cost r P) (hP : ∀ a, P a → P' a) :
    Gives limit cost r P' := by
  intro depth bytes a rest hlimit hread
  obtain ⟨hrest, ha⟩ := hr depth bytes a rest hlimit hread
  exact ⟨hrest, hP a ha⟩

/-- How much is taken does not always matter. -/
theorem weaken (hr : Gives limit cost r P) : Gives limit 0 r P := by
  intro depth bytes a rest hlimit hread
  obtain ⟨hrest, ha⟩ := hr depth bytes a rest hlimit hread
  exact ⟨by omega, ha⟩

/-- Whatever comes first, the rest takes what it takes. -/
theorem bind_any {next : α → Reader β} (hr : Gives limit cost r fun _ => True)
    (hnext : ∀ a, Gives limit 0 (next a) Q) : Gives limit cost (r >>= next) Q :=
  hr.bind fun a _ => hnext a

theorem map {make : α → β} (hr : Gives limit cost r P) (hmake : ∀ a, P a → Q (make a)) :
    Gives limit 0 (do Pure.pure (make (← r))) Q :=
  hr.weaken.bind fun a ha => pure (hmake a ha)

theorem fail : Gives limit cost (Reader.fail : Reader α) P := by
  intro depth bytes a rest _ hread
  cases hread

theorem ofOption {a? : Option α} (h : ∀ a, a? = some a → P a) :
    Gives limit 0 (Reader.ofOption a?) P := by
  cases a? with
  | none => exact fail
  | some a => exact pure (h a rfl)

theorem nested (hr : Gives limit cost r P) : Gives limit cost r.nested P := by
  intro depth bytes a rest hlimit hread
  cases depth with
  | zero => simp [Reader.nested] at hread
  | succ depth => exact hr depth bytes a rest hlimit hread

end Gives

/-! ## Heads -/

theorem gives_head : Gives limit 1 Reader.head fun _ => True :=
  fun _ _ _ _ _ hread => ⟨length_of_readHead hread, trivial⟩

theorem length_of_skipTags {fuel : Nat} {head : Head} {bytes rest : List UInt8}
    (h : Reader.skipTags fuel bytes = some (head, rest)) : rest.length + 1 ≤ bytes.length := by
  induction fuel generalizing bytes with
  | zero => simp [Reader.skipTags] at h
  | succ fuel ih =>
    rw [Reader.skipTags] at h
    split at h
    · rename_i hhead
      have := length_of_readHead hhead
      have := ih h
      omega
    · exact length_of_readHead h

theorem gives_untagged : Gives limit 1 Reader.untagged fun _ => True :=
  fun _ _ _ _ _ hread => ⟨length_of_skipTags hread, trivial⟩

theorem gives_takeStop : Gives limit 0 Reader.takeStop fun _ => True := by
  intro depth bytes stopped rest _ hread
  unfold Reader.takeStop at hread
  split at hread
  · rename_i hhead
    cases hread
    have := length_of_readHead hhead
    exact ⟨by omega, trivial⟩
  · cases hread
    exact ⟨Nat.le_refl _, trivial⟩
  · simp at hread

theorem gives_ignore : Gives limit 0 Reader.ignore fun _ => True := by
  intro depth bytes u rest _ hread
  obtain ⟨left, hleft, heq⟩ := Option.map_eq_some_iff.mp hread
  cases heq
  exact ⟨length_of_skip hleft, trivial⟩

/-! ## Numbers and strings -/

theorem gives_bytesAfter {length : Option Nat} :
    Gives limit 0 (fun _ bytes => bytesAfter length bytes : Reader (List UInt8))
      (·.length < limit) := by
  intro depth bytes found rest hlimit hread
  have := length_of_bytesAfter hread
  exact ⟨by omega, by omega⟩

theorem gives_textAfter {length : Option Nat} :
    Gives limit 0 (fun _ bytes => textAfter length bytes : Reader String)
      fun s => (Utf8.ofString s).length < limit := by
  intro depth bytes found rest hlimit hread
  have := length_of_textAfter hread
  exact ⟨by omega, by omega⟩

theorem gives_bigNat : Gives limit 0 Reader.bigNat fun _ => True := by
  refine (gives_head.bind_any fun head => ?_).weaken
  cases head with
  | bytes length =>
    exact gives_bytesAfter.bind fun _ _ => Gives.ofOption fun _ _ => trivial
  | _ => exact Gives.fail

theorem gives_integerFrom (fuel : Nat) :
    Gives limit 1 (Reader.integerFrom fuel) fun _ => True := by
  induction fuel with
  | zero => exact Gives.fail
  | succ fuel ih =>
    refine gives_head.bind_any fun head => ?_
    split
    · exact Gives.pure trivial
    · exact Gives.pure trivial
    · exact gives_bigNat.bind fun _ _ => Gives.pure trivial
    · exact gives_bigNat.bind fun _ _ => Gives.pure trivial
    · exact ih.weaken
    · exact Gives.fail

theorem gives_integer : Gives limit 1 Reader.integer fun _ => True :=
  fun depth bytes n rest hlimit hread => gives_integerFrom _ depth bytes n rest hlimit hread

theorem gives_integerIn (low high : Int) :
    Gives limit 1 (Reader.integerIn low high) fun _ => True := by
  refine gives_integer.bind_any fun n => ?_
  split
  · exact Gives.pure trivial
  · exact Gives.fail

theorem gives_natBelow (bound : Nat) : Gives limit 1 (Reader.natBelow bound) fun _ => True :=
  (gives_integerIn _ _).bind_any fun _ => Gives.pure trivial

theorem gives_int64 : Gives limit 1 Reader.int64 fun _ => True :=
  (gives_integerIn _ _).bind_any fun _ => Gives.pure trivial

theorem gives_uint64 : Gives limit 1 Reader.uint64 fun _ => True :=
  (gives_natBelow _).bind_any fun _ => Gives.pure trivial

theorem gives_uint32 : Gives limit 1 Reader.uint32 fun _ => True :=
  (gives_natBelow _).bind_any fun _ => Gives.pure trivial

theorem gives_byte : Gives limit 1 Reader.byte fun _ => True :=
  (gives_natBelow _).bind_any fun _ => Gives.pure trivial

theorem gives_bool : Gives limit 1 Reader.bool fun _ => True := by
  refine gives_untagged.bind_any fun head => ?_
  split
  · exact Gives.pure trivial
  · exact Gives.pure trivial
  · exact Gives.fail

theorem gives_string : Gives limit 1 Reader.string fun s => (Utf8.ofString s).length < limit := by
  refine gives_untagged.bind_any fun head => ?_
  cases head with
  | text length => exact gives_textAfter
  | _ => exact Gives.fail

theorem gives_exactly (length : Nat) : Gives limit 0 (Reader.exactly length) fun _ => True := by
  intro depth bytes found rest _ hread
  unfold Reader.exactly at hread
  split at hread
  · simp at hread
  · cases hread
    exact ⟨by simp, trivial⟩

theorem gives_shortBytes : Gives limit 1 Reader.shortBytes fun _ => True := by
  refine gives_untagged.bind_any fun head => ?_
  split
  · exact gives_exactly _
  · exact Gives.fail

theorem gives_name : Gives limit 1 Reader.name fun _ => True := by
  refine gives_untagged.bind_any fun head => ?_
  split
  · refine (gives_exactly _).bind_any fun _ => ?_
    exact (Gives.ofOption fun _ _ => trivial).bind_any fun _ => Gives.pure trivial
  · exact (gives_exactly _).bind_any fun _ => Gives.pure trivial
  · exact Gives.fail

theorem Gives.option (hr : Gives limit cost r P) :
    Gives limit 0 (Reader.option r) fun a? => ∀ a, a? = some a → P a := by
  intro depth bytes a? rest hlimit hread
  unfold Reader.option at hread
  split at hread
  · rename_i hhead
    cases hread
    have := length_of_readHead hhead
    exact ⟨by omega, nofun⟩
  · rename_i hhead
    cases hread
    have := length_of_readHead hhead
    exact ⟨by omega, nofun⟩
  · obtain ⟨⟨a, left⟩, ha, heq⟩ := Option.map_eq_some_iff.mp hread
    cases heq
    obtain ⟨hrest, hP⟩ := hr depth bytes a rest hlimit ha
    refine ⟨by omega, fun b hb => ?_⟩
    cases hb
    exact hP
  · simp at hread

/-! ## Sequences -/

/-- A sequence gives no more items than it takes bytes. -/
def GivesItems (limit : Nat) (r : Reader (List α)) (P : α → Prop) : Prop :=
  ∀ depth bytes items rest, bytes.length < limit → r depth bytes = some (items, rest) →
    items.length + rest.length ≤ bytes.length ∧ ∀ a ∈ items, P a

namespace GivesItems

variable {more : Reader (List α)}

theorem nil : GivesItems limit (pure []) P := by
  intro depth bytes items rest _ hread
  cases hread
  exact ⟨by simp, nofun⟩

theorem fail : GivesItems limit (Reader.fail : Reader (List α)) P := by
  intro depth bytes items rest _ hread
  cases hread

theorem cons (hr : Gives limit 1 r P) (hmore : GivesItems limit more P) :
    GivesItems limit (do pure ((← r) :: (← more))) P := by
  intro depth bytes items rest hlimit hread
  obtain ⟨a, left, ha, hread⟩ := Reader.bind_eq_some.mp hread
  obtain ⟨others, last, hothers, hread⟩ := Reader.bind_eq_some.mp hread
  cases hread
  obtain ⟨hleft, hP⟩ := hr depth bytes a left hlimit ha
  obtain ⟨hcount, hall⟩ := hmore depth left others rest (by omega) hothers
  refine ⟨by simp; omega, fun b hb => ?_⟩
  rcases List.mem_cons.mp hb with rfl | hb
  · exact hP
  · exact hall b hb

theorem after {next : β → Reader (List α)} {first : Reader β}
    (hfirst : Gives limit 0 first fun _ => True) (hnext : ∀ b, GivesItems limit (next b) P) :
    GivesItems limit (first >>= next) P := by
  intro depth bytes items rest hlimit hread
  obtain ⟨b, left, hb, hread⟩ := Reader.bind_eq_some.mp hread
  obtain ⟨hleft, -⟩ := hfirst depth bytes b left hlimit hb
  obtain ⟨hcount, hall⟩ := hnext b depth left items rest (by omega) hread
  exact ⟨by omega, hall⟩

theorem gives (h : GivesItems limit more P) :
    Gives limit 0 more fun items => items.length < limit ∧ ∀ a ∈ items, P a := by
  intro depth bytes items rest hlimit hread
  obtain ⟨hcount, hall⟩ := h depth bytes items rest hlimit hread
  exact ⟨by omega, by omega, hall⟩

end GivesItems

theorem Gives.times (hr : Gives limit 1 r P) (count : Nat) :
    GivesItems limit (Reader.times r count) P := by
  induction count with
  | zero => exact GivesItems.nil
  | succ count ih => exact GivesItems.cons hr ih

theorem Gives.untilStop (hr : Gives limit 1 r P) (fuel : Nat) :
    GivesItems limit (Reader.untilStop r fuel) P := by
  induction fuel with
  | zero => exact GivesItems.fail
  | succ fuel ih =>
    refine GivesItems.after gives_takeStop fun stopped => ?_
    cases stopped with
    | true => exact GivesItems.nil
    | false => exact GivesItems.cons hr ih

theorem Gives.items (hr : Gives limit 1 r P) (count : Option Nat) :
    GivesItems limit (Reader.items r count) P := by
  cases count with
  | some count => exact hr.times count
  | none => exact fun depth bytes => hr.untilStop _ depth bytes

theorem Gives.firstItems (hr : Gives limit 1 r P) (wanted : Nat) (count : Option Nat) :
    GivesItems limit (Reader.firstItems r wanted count) P := by
  induction wanted generalizing count with
  | zero => exact GivesItems.nil
  | succ wanted ih =>
    match count with
    | some 0 => exact GivesItems.fail
    | some (count + 1) => exact GivesItems.cons hr (ih (some count))
    | none =>
      refine GivesItems.after gives_takeStop fun stopped => ?_
      cases stopped with
      | true => exact GivesItems.fail
      | false => exact GivesItems.cons hr (ih none)

/-- A list of less than `limit` items, all of which are as asked for. -/
structure ListWithin (limit : Nat) (P : α → Prop) (items : List α) : Prop where
  length_lt : items.length < limit
  all : ∀ a ∈ items, P a

theorem listWithin_iff {items : List α} :
    ListWithin limit P items ↔ items.length < limit ∧ ∀ a ∈ items, P a :=
  ⟨fun h => ⟨h.length_lt, h.all⟩, fun h => ⟨h.1, h.2⟩⟩

instance [DecidablePred P] : DecidablePred (ListWithin limit P) :=
  fun _ => decidable_of_iff _ listWithin_iff.symm

theorem of_mapM_eq_some {f : β → Option α} {bs : List β} {items : List α}
    (h : bs.mapM f = some items) : items.length = bs.length ∧ ∀ a ∈ items, ∃ b, f b = some a := by
  induction bs generalizing items with
  | nil =>
    cases h
    exact ⟨rfl, nofun⟩
  | cons b bs ih =>
    rw [List.mapM_cons] at h
    obtain ⟨a, ha, h⟩ := Option.bind_eq_some_iff.mp h
    obtain ⟨more, hmore, h⟩ := Option.bind_eq_some_iff.mp h
    cases h
    obtain ⟨hlength, hall⟩ := ih hmore
    refine ⟨congrArg (· + 1) hlength, fun x hx => ?_⟩
    rcases List.mem_cons.mp hx with rfl | hx
    · exact ⟨b, ha⟩
    · exact hall x hx

theorem Gives.list {ofByte? : UInt8 → Option α} (hr : Gives limit 1 r P)
    (hbyte : ∀ b a, ofByte? b = some a → P a) :
    Gives limit 1 (Reader.list ofByte? r) (ListWithin limit P) := by
  refine gives_untagged.bind_any fun head => ?_
  split
  · exact (hr.items _).gives.nested.imp fun items h => ⟨h.1, h.2⟩
  · refine gives_bytesAfter.bind fun bytes hbytes => Gives.ofOption fun items h => ?_
    obtain ⟨hlength, hall⟩ := of_mapM_eq_some h
    refine ⟨hlength ▸ hbytes, fun a ha => ?_⟩
    obtain ⟨b, hb⟩ := hall a ha
    exact hbyte b a hb
  · exact Gives.fail

theorem Gives.listOf (hr : Gives limit 1 r P) :
    Gives limit 1 (Reader.listOf r) (ListWithin limit P) :=
  hr.list fun _ _ h => by cases h

theorem gives_octets (count : Nat) : Gives limit 1 (Reader.octets count) fun _ => True := by
  refine gives_untagged.bind_any fun head => ?_
  split
  · exact (gives_byte.firstItems count _).gives.nested.imp fun _ _ => trivial
  · refine gives_bytesAfter.bind fun bytes hbytes => ?_
    split
    · exact Gives.fail
    · exact Gives.pure trivial
  · exact Gives.fail

/-! ## Records -/

/-- What is asked for of each field. -/
def Demands : List Type → Type
  | [] => Unit
  | α :: more => (α → Prop) × Demands more

/-- What has been read of each field is as asked for. -/
def Slots.Meets : {fields : List Type} → Slots fields → Demands fields → Prop
  | [], _, _ => True
  | _ :: _, (slot, slots), (P, demands) => (∀ a, slot = some a → P a) ∧ slots.Meets demands

namespace Layout

variable {fields : List Type} {layout : Layout fields} {demands : Demands fields}
  {slots : Slots fields}

/-- The reader of each field gives what is asked for. -/
def Gives (limit : Nat) : {fields : List Type} → Layout fields → Demands fields → Prop
  | _, nil, _ => True
  | _, field _ read rest, (P, demands) => Cbor.Gives limit 1 read P ∧ rest.Gives limit demands

theorem meets_empty : (layout.empty).Meets demands := by
  induction layout with
  | nil => trivial
  | field name read rest ih => exact ⟨nofun, ih⟩

theorem Gives.entry (h : layout.Gives limit demands) (found : Option String)
    (hslots : slots.Meets demands) :
    Cbor.Gives limit 0 (layout.entry found slots) (·.Meets demands) := by
  induction layout with
  | nil => exact gives_ignore.bind_any fun _ => Gives.pure trivial
  | field name read rest ih =>
    obtain ⟨slot, slots⟩ := slots
    obtain ⟨P, demands⟩ := demands
    obtain ⟨hread, hrest⟩ := h
    obtain ⟨hslot, hslots⟩ := hslots
    by_cases hfound : found = some name
    · subst hfound
      cases slot with
      | some a =>
        rw [entry_repeated]
        exact Gives.fail
      | none =>
        rw [entry_named]
        refine hread.weaken.bind fun a ha => Gives.pure ⟨?_, hslots⟩
        rintro b hb
        cases hb
        exact ha
    · rw [entry_other hfound]
      exact (ih hrest hslots).bind fun slots hmeets => Gives.pure ⟨hslot, hmeets⟩

theorem Gives.entries (h : layout.Gives limit demands) (count : Nat)
    (hslots : slots.Meets demands) :
    Cbor.Gives limit 0 (layout.entries count slots) (·.Meets demands) := by
  induction count generalizing slots with
  | zero => exact Gives.pure hslots
  | succ count ih =>
    refine (gives_name.bind_any fun name => ?_).weaken
    exact (h.entry name hslots).bind fun slots hmeets => ih hmeets

theorem Gives.openEntries (h : layout.Gives limit demands) (fuel : Nat)
    (hslots : slots.Meets demands) :
    Cbor.Gives limit 0 (layout.openEntries fuel slots) (·.Meets demands) := by
  induction fuel generalizing slots with
  | zero => exact Gives.fail
  | succ fuel ih =>
    refine gives_takeStop.bind_any fun stopped => ?_
    cases stopped with
    | true => exact Gives.pure hslots
    | false =>
      refine (gives_name.bind_any fun name => ?_).weaken
      exact (h.entry name hslots).bind fun slots hmeets => ih hmeets

theorem Gives.mapAfter (h : layout.Gives limit demands) (count : Option Nat) :
    Cbor.Gives limit 0 (layout.mapAfter count) (·.Meets demands) := by
  cases count with
  | some count => exact h.entries count meets_empty
  | none => exact fun depth bytes => h.openEntries _ meets_empty depth bytes

theorem Gives.inOrder (h : layout.Gives limit demands) (count : Option Nat) :
    Cbor.Gives limit 0 (layout.inOrder count) (·.Meets demands) := by
  induction layout generalizing count with
  | nil => exact Gives.pure trivial
  | @field α others name read rest ih =>
    obtain ⟨P, demands⟩ := demands
    obtain ⟨hread, hrest⟩ := h
    have hfield (count : Option Nat) : Cbor.Gives limit 0 (do
        let a ← read
        let more ← rest.inOrder count
        pure ((some a, more) : Slots (α :: others))) fun slots =>
        @Slots.Meets (α :: others) slots (P, demands) := by
      refine hread.weaken.bind fun a ha => (ih hrest count).bind fun more hmore => ?_
      refine Gives.pure ⟨fun b hb => ?_, hmore⟩
      cases hb
      exact ha
    match count with
    | some 0 => exact Gives.fail
    | some (count + 1) => exact hfield (some count)
    | none =>
      refine gives_takeStop.bind_any fun stopped => ?_
      cases stopped with
      | true => exact Gives.fail
      | false => exact hfield none

theorem Gives.record (h : layout.Gives limit demands) :
    Cbor.Gives limit 1 layout.record (·.Meets demands) := by
  refine gives_untagged.bind_any fun head => ?_
  cases head with
  | map count => exact (h.mapAfter count).nested
  | _ => exact Gives.fail

theorem Gives.content (h : layout.Gives limit demands) :
    Cbor.Gives limit 1 layout.content (·.Meets demands) := by
  refine gives_head.bind_any fun head => ?_
  cases head with
  | map count => exact (h.mapAfter count).nested
  | array count => exact (h.inOrder count).nested
  | _ => exact Gives.fail

end Layout

/-! ## Variants -/

theorem length_dropTags (fuel : Nat) (bytes : List UInt8) :
    (dropTags fuel bytes).length ≤ bytes.length := by
  induction fuel generalizing bytes with
  | zero => exact Nat.le_refl _
  | succ fuel ih =>
    rw [dropTags]
    split
    · rename_i hhead
      have := length_of_readHead hhead
      have := ih ‹_›
      omega
    · exact Nat.le_refl _

theorem gives_nameNext : Gives limit 0 nameNext fun _ => True := by
  intro depth bytes u rest _ hread
  unfold nameNext at hread
  split at hread
  · cases hread
    exact ⟨Nat.le_refl _, trivial⟩
  · rename_i hhead
    cases hread
    have := length_of_readHead hhead
    exact ⟨by omega, trivial⟩
  · simp at hread

theorem gives_variant {cases : List (String × Reader α)}
    (h : ∀ case ∈ cases, Gives limit 0 case.2 P) : Gives limit 1 (variant cases) P := by
  have hcase : Gives limit 1 (caseReader cases) P := by
    refine (gives_name.bind_any fun name? => ?_).nested
    cases name? with
    | none => exact Gives.fail
    | some name =>
      dsimp only
      split
      · rename_i read hlookup
        obtain ⟨before, after, hcases, -⟩ := List.lookup_eq_some_iff.mp hlookup
        have hmem : (name, read) ∈ cases := by simp [hcases]
        exact h _ hmem
      · exact Gives.fail
  intro depth bytes a rest hlimit hread
  rw [variant_apply] at hread
  obtain ⟨u, left, hnext, hread⟩ := Reader.bind_eq_some.mp hread
  have hdropped := length_dropTags bytes.length bytes
  obtain ⟨hleft, -⟩ := gives_nameNext depth _ u left (Nat.lt_of_le_of_lt hdropped hlimit) hnext
  obtain ⟨hrest, hP⟩ := hcase depth left a rest (by omega) hread
  exact ⟨by omega, hP⟩

end ValueTree.Cbor
