import Mathlib.Algebra.Group.Nat.Defs
import ValueTree.Cbor.Reader
import ValueTree.Proofs.Text.Utf8

/-!
# Heads and strings

A head that was written is read again, in whichever room its number took. Whatever is read takes its
bytes from the front: a head at least one of them, and a string all that it is made of.
-/

namespace ValueTree.Cbor

/-! ## Numbers -/

theorem ofBigEndian_append_singleton (bytes : List UInt8) (b : UInt8) :
    ofBigEndian (bytes ++ [b]) = 256 * ofBigEndian bytes + b.toNat := by
  simp [ofBigEndian]

@[simp]
theorem length_bigEndian (count n : Nat) : (bigEndian count n).length = count := by
  induction count generalizing n with
  | zero => rfl
  | succ count ih => simp [bigEndian, ih]

theorem ofBigEndian_bigEndian {count n : Nat} (h : n < 256 ^ count) :
    ofBigEndian (bigEndian count n) = n := by
  induction count generalizing n with
  | zero =>
    obtain rfl : n = 0 := by simpa using h
    rfl
  | succ count ih =>
    have hfront : n / 256 < 256 ^ count :=
      Nat.div_lt_of_lt_mul (by rwa [Nat.pow_succ, Nat.mul_comm] at h)
    rw [bigEndian, ofBigEndian_append_singleton, ih hfront]
    simp
    omega

theorem takeNumber_bigEndian {count n : Nat} (h : n < 256 ^ count) (rest : List UInt8) :
    takeNumber count (bigEndian count n ++ rest) = some (n, rest) := by
  have hlength := length_bigEndian count n
  simp [takeNumber, ofBigEndian_bigEndian h]

theorem length_of_takeNumber {count n : Nat} {bytes rest : List UInt8}
    (h : takeNumber count bytes = some (n, rest)) : rest.length ≤ bytes.length := by
  unfold takeNumber at h
  split at h
  · simp at h
  · cases h
    simp

/-! ## Heads -/

theorem readHead_cons {major minor : Nat} (hmajor : major < 8) (hminor : minor < 32)
    (bytes : List UInt8) :
    readHead ((32 * major + minor).toUInt8 :: bytes) = do
      let (argument, rest) ← readArgument minor bytes
      let head ← headOf major minor argument
      return (head, rest) := by
  have hbyte : (32 * major + minor).toUInt8.toNat = 32 * major + minor :=
    Utf8.toNat_byte (by omega)
  have hmod : (32 * major + minor) % 32 = minor := by omega
  have hdiv : (32 * major + minor) / 32 = major := by omega
  rw [readHead, hbyte, hmod, hdiv]

/-- A head that was written is read again. -/
theorem readHead_writeHead {major n : Nat} {head : Head} (hmajor : major < 7)
    (hhead : headOf major 0 (some n) = some head) (hn : n < UInt64.size) (rest : List UInt8) :
    readHead (writeHead major n ++ rest) = some (head, rest) := by
  have hof (minor : Nat) : headOf major minor (some n) = some head := by
    rw [← hhead]
    match major, hmajor with
    | 0, _ | 1, _ | 2, _ | 3, _ | 4, _ | 5, _ | 6, _ => rfl
  have hwide {minor count : Nat} (hminor : minor < 32) (hfits : n < 256 ^ count)
      (hargument : ∀ bytes, readArgument minor bytes =
        (takeNumber count bytes).map fun taken => (some taken.1, taken.2)) :
      readHead ((32 * major + minor).toUInt8 :: bigEndian count n ++ rest) = some (head, rest) := by
    rw [List.cons_append, readHead_cons (by omega) hminor, hargument, takeNumber_bigEndian hfits]
    simp [hof]
  unfold writeHead
  split
  · rename_i hsmall
    rw [List.singleton_append, readHead_cons (by omega) (by omega)]
    simp [readArgument, hsmall, hof]
  split
  · exact hwide (by omega) ‹_› fun _ => rfl
  split
  · exact hwide (by omega) ‹_› fun _ => rfl
  split
  · exact hwide (by omega) ‹_› fun _ => rfl
  · exact hwide (by omega) hn fun _ => rfl

theorem length_of_readArgument {minor : Nat} {argument : Option Nat} {bytes rest : List UInt8}
    (h : readArgument minor bytes = some (argument, rest)) : rest.length ≤ bytes.length := by
  have hwide {count : Nat}
      (h : (takeNumber count bytes).map (fun taken => (some taken.1, taken.2)) =
        some (argument, rest)) : rest.length ≤ bytes.length := by
    obtain ⟨⟨n, left⟩, htaken, hrest⟩ := Option.map_eq_some_iff.mp h
    cases hrest
    exact length_of_takeNumber htaken
  unfold readArgument at h
  repeat' split at h
  all_goals first
    | exact hwide h
    | (cases h; exact Nat.le_refl _)
    | contradiction

theorem length_of_readHead {head : Head} {bytes rest : List UInt8}
    (h : readHead bytes = some (head, rest)) : rest.length + 1 ≤ bytes.length := by
  cases bytes with
  | nil => simp [readHead] at h
  | cons b bytes =>
    obtain ⟨⟨argument, left⟩, hargument, h⟩ := Option.bind_eq_some_iff.mp h
    obtain ⟨found, -, h⟩ := Option.bind_eq_some_iff.mp h
    cases h
    exact Nat.succ_le_succ (length_of_readArgument hargument)

/-! ## Strings -/

variable {kind : StringKind} {bytes rest : List UInt8} {length : Option Nat}

theorem stringAfter_append (content rest : List UInt8) :
    stringAfter kind (some content.length) (content ++ rest) = some ([content], rest) := by
  simp [stringAfter]

theorem textAfter_append (s : String) (rest : List UInt8) :
    textAfter (some (Utf8.ofString s).length) (Utf8.ofString s ++ rest) = some (s, rest) := by
  have hdecode : Utf8.decode (Utf8.ofString s) = some s.toList := Utf8.decode_encode s.toList
  simp [textAfter, stringAfter_append, hdecode]

/-- The pieces of a string are a part of the bytes that were taken for it. -/
theorem length_of_pieces {fuel depth : Nat} {found : List (List UInt8)}
    (h : pieces kind fuel depth bytes = some (found, rest)) :
    found.flatten.length + rest.length ≤ bytes.length := by
  induction fuel generalizing depth bytes found rest with
  | zero => simp [pieces] at h
  | succ fuel ih =>
    obtain ⟨⟨head, left⟩, hhead, h⟩ := Option.bind_eq_some_iff.mp h
    have hleft := length_of_readHead hhead
    dsimp only at h
    split at h
    · split at h
      · cases h
        simp
        omega
      · have := ih h
        omega
    · have := ih h
      omega
    · rename_i length
      split at h
      · simp at h
      · rename_i henough
        obtain ⟨⟨more, last⟩, hmore, h⟩ := Option.bind_eq_some_iff.mp h
        cases h
        have := ih hmore
        simp at this ⊢
        omega
    · simp at h

theorem length_of_stringAfter {found : List (List UInt8)}
    (h : stringAfter kind length bytes = some (found, rest)) :
    found.flatten.length + rest.length ≤ bytes.length := by
  unfold stringAfter at h
  split at h
  · split at h
    · simp at h
    · cases h
      simp
      omega
  · exact length_of_pieces h

theorem length_of_bytesAfter {found : List UInt8}
    (h : bytesAfter length bytes = some (found, rest)) :
    found.length + rest.length ≤ bytes.length := by
  obtain ⟨⟨pieces, left⟩, hpieces, h⟩ := Option.bind_eq_some_iff.mp h
  cases h
  exact length_of_stringAfter hpieces

theorem length_of_textAfter {s : String} (h : textAfter length bytes = some (s, rest)) :
    (Utf8.ofString s).length + rest.length ≤ bytes.length := by
  obtain ⟨⟨found, left⟩, hfound, h⟩ := Option.bind_eq_some_iff.mp h
  obtain ⟨parts, hparts, h⟩ := Option.bind_eq_some_iff.mp h
  cases h
  rw [Utf8.ofString, String.toList_ofList, Utf8.encode_flatten hparts]
  exact length_of_stringAfter hfound

/-! ## Items passed over -/

theorem length_of_bigNatAfter? {tag big : Nat} (h : bigNatAfter? tag bytes = some (big, rest)) :
    rest.length ≤ bytes.length := by
  unfold bigNatAfter? at h
  split at h
  · simp at h
  · split at h
    · rename_i hhead
      have := length_of_readHead hhead
      split at h
      · cases h
        simp
        omega
      · simp at h
    · simp at h

/-- What stays behind an item, behind a count of items and behind items up to a stop. -/
theorem length_of_skipItem (fuel : Nat) :
    (∀ {depth bytes rest}, skipItem fuel depth bytes = some rest → rest.length ≤ bytes.length) ∧
      (∀ {depth count bytes rest}, skipItems fuel depth count bytes = some rest →
        rest.length ≤ bytes.length) ∧
      ∀ {depth group bytes rest}, skipOpen fuel depth group bytes = some rest →
        rest.length ≤ bytes.length := by
  induction fuel with
  | zero =>
    refine ⟨?_, ?_, ?_⟩
    · intro depth bytes rest h
      simp [skipItem] at h
    · intro depth count bytes rest h
      cases count with
      | zero => simp_all [skipItems]
      | succ count => simp [skipItems] at h
    · intro depth group bytes rest h
      simp [skipOpen] at h
  | succ fuel ih =>
    obtain ⟨hitem, hitems, hopen⟩ := ih
    refine ⟨?_, ?_, ?_⟩
    · intro depth bytes rest h
      rw [skipItem] at h
      split at h
      · simp at h
      · rename_i head left hhead
        have hleft := length_of_readHead hhead
        suffices rest.length ≤ left.length by omega
        cases head with
        | unsigned | negative | float =>
          cases h
          exact Nat.le_refl _
        | simple n =>
          obtain ⟨-, h⟩ := Option.ite_none_right_eq_some.mp h
          cases h
          exact Nat.le_refl _
        | bytes length =>
          obtain ⟨⟨found, last⟩, hfound, rfl⟩ := Option.map_eq_some_iff.mp h
          exact Nat.le_trans (Nat.le_add_left ..) (length_of_bytesAfter hfound)
        | text length =>
          obtain ⟨⟨found, last⟩, hfound, rfl⟩ := Option.map_eq_some_iff.mp h
          exact Nat.le_trans (Nat.le_add_left ..) (length_of_textAfter hfound)
        | array count =>
          cases depth with
          | zero => cases count <;> cases h
          | succ depth =>
            cases count with
            | none => exact hopen h
            | some count => exact hitems h
        | map count =>
          cases depth with
          | zero => cases count <;> cases h
          | succ depth =>
            cases count with
            | none => exact hopen h
            | some count => exact hitems h
        | tag n =>
          dsimp only at h
          split at h
          · rename_i hbig
            obtain ⟨-, h⟩ := Option.ite_none_left_eq_some.mp h
            cases h
            exact length_of_bigNatAfter? hbig
          · exact hitem h
          · simp at h
        | stop => cases h
    · intro depth count bytes rest h
      cases count with
      | zero => simp_all [skipItems]
      | succ count =>
        rw [skipItems] at h
        split at h
        · exact Nat.le_trans (hitems h) (hitem ‹_›)
        · simp at h
    · intro depth group bytes rest h
      rw [skipOpen] at h
      split at h
      · rename_i hhead
        cases h
        have := length_of_readHead hhead
        omega
      · split at h
        · exact Nat.le_trans (hopen h) (hitems ‹_›)
        · simp at h

theorem length_of_skip {depth : Nat} (h : skip depth bytes = some rest) :
    rest.length ≤ bytes.length := (length_of_skipItem _).1 h

/-! ## Readers in turn -/

theorem Reader.bind_apply {α β : Type} (r : Reader α) (next : α → Reader β) (depth : Nat)
    (bytes : List UInt8) :
    (r >>= next) depth bytes =
      match r depth bytes with
      | some (a, rest) => next a depth rest
      | none => none := rfl

theorem Reader.bind_eq_some {α β : Type} {r : Reader α} {next : α → Reader β} {depth : Nat}
    {b : β} :
    (r >>= next) depth bytes = some (b, rest) ↔
      ∃ a left, r depth bytes = some (a, left) ∧ next a depth left = some (b, rest) := by
  rw [Reader.bind_apply]
  cases r depth bytes with
  | none => simp
  | some found =>
    obtain ⟨a, left⟩ := found
    constructor
    · exact fun hb => ⟨a, left, rfl, hb⟩
    · rintro ⟨_, _, hfound, hb⟩
      cases hfound
      exact hb

/-! ## Entries of records -/

namespace Layout

variable {α : Type} {fields : List Type} {layout : Layout fields} {slots : Slots fields}
  {name : String} {read : Reader α}

theorem entry_named :
    (field name read layout).entry (some name) (none, slots) =
      (do pure (some (← read), slots)) :=
  if_pos rfl

theorem entry_repeated (a : α) :
    (field name read layout).entry (some name) (some a, slots) = Reader.fail :=
  if_pos rfl

theorem entry_other {slot : Option α} {found : Option String} (h : found ≠ some name) :
    (field name read layout).entry found (slot, slots) =
      (do pure (slot, ← layout.entry found slots)) :=
  if_neg h

end Layout

/-! ## Names of variants -/

/-- What a variant reads once it is clear that a name comes next. -/
def caseReader {α : Type} (cases : List (String × Reader α)) : Reader α := Reader.nested do
  match ← Reader.name with
  | some name =>
    match cases.lookup name with
    | some read => read
    | none => Reader.fail
  | none => Reader.fail

theorem variant_apply {α : Type} (cases : List (String × Reader α)) (depth : Nat)
    (bytes : List UInt8) :
    variant cases depth bytes =
      (nameNext >>= fun _ => caseReader cases) depth (dropTags bytes.length bytes) := rfl

end ValueTree.Cbor
