import ValueTree.Proofs.Cbor.Heads

/-!
# Reading what was written

One lemma for each way of putting bytes together: the reader for it takes these bytes, gives back
what they were written for, and leaves what follows them.
-/

namespace ValueTree.Cbor

variable {α β : Type} {r : Reader α} {levels : Nat} {written more : List UInt8} {a : α}

/-- A reader that may go down some levels takes what was written and nothing behind it. -/
def Reads (r : Reader α) (levels : Nat) (written : List UInt8) (a : α) : Prop :=
  ∀ depth, levels ≤ depth → ∀ rest, r depth (written ++ rest) = some (a, rest)

namespace Reads

theorem pure (levels : Nat) (a : α) : Reads (Pure.pure a) levels [] a := fun _ _ _ => rfl

theorem bind {next : α → Reader β} {b : β} (hr : Reads r levels written a)
    (hnext : Reads (next a) levels more b) : Reads (r >>= next) levels (written ++ more) b := by
  intro depth hdepth rest
  rw [Reader.bind_apply, List.append_assoc, hr depth hdepth]
  exact hnext depth hdepth rest

/-- A last step that takes no bytes of its own. -/
theorem bind_end {next : α → Reader β} {b : β} (hr : Reads r levels written a)
    (hnext : Reads (next a) levels [] b) : Reads (r >>= next) levels written b :=
  List.append_nil written ▸ hr.bind hnext

theorem map (f : α → β) (hr : Reads r levels written a) :
    Reads (do Pure.pure (f (← r))) levels written (f a) :=
  hr.bind_end (pure levels (f a))

theorem mono {levels' : Nat} (hr : Reads r levels written a) (h : levels ≤ levels') :
    Reads r levels' written a :=
  fun depth hdepth rest => hr depth (Nat.le_trans h hdepth) rest

theorem nested (hr : Reads r levels written a) : Reads r.nested (levels + 1) written a := by
  intro depth hdepth rest
  obtain ⟨depth, rfl⟩ : ∃ d, depth = d + 1 := ⟨depth - 1, by omega⟩
  exact hr depth (by omega) rest

theorem ofOption (levels : Nat) (a : α) : Reads (Reader.ofOption (some a)) levels [] a :=
  pure levels a

end Reads

/-! ## Heads -/

section

variable {major n : Nat} {head : Head}

theorem reads_head (hmajor : major < 7) (hhead : headOf major 0 (some n) = some head)
    (hn : n < UInt64.size) : Reads Reader.head levels (writeHead major n) head :=
  fun _ _ rest => readHead_writeHead hmajor hhead hn rest

theorem skipTags_of_readHead {bytes rest : List UInt8} {fuel : Nat}
    (h : readHead bytes = some (head, rest)) (htag : ∀ t, head ≠ .tag t) :
    Reader.skipTags (fuel + 1) bytes = some (head, rest) := by
  rw [Reader.skipTags, h]
  cases head with
  | tag t => exact absurd rfl (htag t)
  | _ => rfl

theorem reads_untagged (hmajor : major < 6) (hhead : headOf major 0 (some n) = some head)
    (hn : n < UInt64.size) : Reads Reader.untagged levels (writeHead major n) head := by
  intro depth _ rest
  apply skipTags_of_readHead (readHead_writeHead (by omega) hhead hn rest)
  rintro t rfl
  match major, hmajor with
  | 0, _ | 1, _ | 2, _ | 3, _ | 4, _ | 5, _ => simp [headOf] at hhead

end

/-! ## Numbers -/

theorem reads_integerFrom {n : Int} (hlow : -UInt64.size ≤ n) (hhigh : n < UInt64.size)
    (fuel : Nat) : Reads (Reader.integerFrom (fuel + 1)) levels (writeInt n) n := by
  cases n with
  | ofNat n =>
    have hhead : Reads Reader.head levels (writeHead 0 n) (.unsigned n) :=
      reads_head (by omega) rfl (Int.ofNat_lt.mp hhigh)
    exact hhead.bind_end (Reads.pure levels _)
  | negSucc n =>
    have hhead : Reads Reader.head levels (writeHead 1 n) (.negative n) :=
      reads_head (by omega) rfl (by omega)
    exact hhead.bind_end (Reads.pure levels _)

theorem reads_integer {n : Int} (hlow : -UInt64.size ≤ n) (hhigh : n < UInt64.size) :
    Reads Reader.integer levels (writeInt n) n :=
  fun depth hdepth rest => reads_integerFrom hlow hhigh _ depth hdepth rest

theorem reads_integerIn {low high n : Int} (hlow : low ≤ n) (hhigh : n ≤ high)
    (hlow64 : -UInt64.size ≤ n) (hhigh64 : n < UInt64.size) :
    Reads (Reader.integerIn low high) levels (writeInt n) n := by
  refine (reads_integer hlow64 hhigh64).bind_end ?_
  simp only [hlow, hhigh, decide_true, Bool.and_self, if_true]
  exact Reads.pure levels n

theorem reads_natBelow {limit n : Nat} (h : n < limit) (h64 : n < UInt64.size) :
    Reads (Reader.natBelow limit) levels (writeNat n) n := by
  have hn : Reads (Reader.integerIn 0 (limit - 1)) levels (writeInt n) n :=
    reads_integerIn (by omega) (by omega) (by omega) (by omega)
  exact hn.map Int.toNat

theorem reads_int64 (n : Int64) : Reads Reader.int64 levels (writeInt n.toInt) n := by
  have hlow : Int64.minValue.toInt ≤ n.toInt := n.minValue_le_toInt
  have hhigh : n.toInt ≤ Int64.maxValue.toInt := n.toInt_le
  have hlow64 : -(UInt64.size : Int) ≤ Int64.minValue.toInt := by decide
  have hhigh64 : Int64.maxValue.toInt < UInt64.size := by decide
  have hread : Reads (Reader.integerIn Int64.minValue.toInt Int64.maxValue.toInt) levels
      (writeInt n.toInt) n.toInt :=
    reads_integerIn hlow hhigh (Int.le_trans hlow64 hlow) (Int.lt_of_le_of_lt hhigh hhigh64)
  have hint := hread.map Int64.ofInt
  rwa [Int64.ofInt_toInt] at hint

theorem reads_uint64 (n : UInt64) : Reads Reader.uint64 levels (writeNat n.toNat) n := by
  have hread : Reads (Reader.natBelow UInt64.size) levels (writeNat n.toNat) n.toNat :=
    reads_natBelow n.toNat_lt_size n.toNat_lt_size
  have hmade := hread.map Nat.toUInt64
  rwa [Nat.toUInt64_eq, UInt64.ofNat_toNat] at hmade

theorem reads_uint32 (n : UInt32) : Reads Reader.uint32 levels (writeNat n.toNat) n := by
  have h64 : n.toNat < UInt64.size := Nat.lt_trans n.toNat_lt_size (by decide)
  have hread : Reads (Reader.natBelow UInt32.size) levels (writeNat n.toNat) n.toNat :=
    reads_natBelow n.toNat_lt_size h64
  have hmade := hread.map Nat.toUInt32
  rwa [Nat.toUInt32_eq, UInt32.ofNat_toNat] at hmade

theorem reads_byte (b : UInt8) : Reads Reader.byte levels (writeNat b.toNat) b := by
  have h64 : b.toNat < UInt64.size := Nat.lt_trans b.toNat_lt_size (by decide)
  have hread : Reads (Reader.natBelow UInt8.size) levels (writeNat b.toNat) b.toNat :=
    reads_natBelow b.toNat_lt_size h64
  have hmade := hread.map Nat.toUInt8
  rwa [Nat.toUInt8_eq, UInt8.ofNat_toNat] at hmade

/-! ## Simple values and strings -/

theorem reads_bool (b : Bool) : Reads Reader.bool levels (writeBool b) b := by
  cases b with
  | false =>
    have hhead : Reads Reader.untagged levels (writeBool false) (.simple 20) :=
      fun _ _ rest => skipTags_of_readHead (show readHead (0xF4 :: rest) = _ from rfl) nofun
    exact hhead.bind_end (Reads.pure levels false)
  | true =>
    have hhead : Reads Reader.untagged levels (writeBool true) (.simple 21) :=
      fun _ _ rest => skipTags_of_readHead (show readHead (0xF5 :: rest) = _ from rfl) nofun
    exact hhead.bind_end (Reads.pure levels true)

theorem reads_string {s : String} (h : (Utf8.ofString s).length < UInt64.size) :
    Reads Reader.string levels (writeText s) s := by
  have hhead : Reads Reader.untagged levels (writeHead 3 (Utf8.ofString s).length)
      (.text (some (Utf8.ofString s).length)) := reads_untagged (by omega) rfl h
  exact hhead.bind fun _ _ rest => textAfter_append s rest

theorem reads_exactly {content : List UInt8} (h : content.length ≤ Reader.nameLimit) :
    Reads (Reader.exactly content.length) levels content content := by
  intro depth _ rest
  simp [Reader.exactly, h]

theorem reads_name {s : String} (h : (Utf8.ofString s).length ≤ Reader.nameLimit) :
    Reads Reader.name levels (writeText s) (some s) := by
  have hhead : Reads Reader.untagged levels (writeHead 3 (Utf8.ofString s).length)
      (.text (some (Utf8.ofString s).length)) :=
    reads_untagged (by omega) rfl (Nat.lt_of_le_of_lt h (by decide))
  have htext : Utf8.toString? (Utf8.ofString s) = some s := by
    have hdecode : Utf8.decode (Utf8.ofString s) = some s.toList := Utf8.decode_encode s.toList
    simp [Utf8.toString?, hdecode]
  refine hhead.bind ((reads_exactly h).bind_end ?_)
  rw [htext]
  exact (Reads.ofOption levels s).bind_end (Reads.pure levels _)

theorem reads_shortBytes {bytes : List UInt8} (h : bytes.length ≤ Reader.nameLimit) :
    Reads Reader.shortBytes levels (writeBytes bytes) bytes := by
  have hhead : Reads Reader.untagged levels (writeHead 2 bytes.length)
      (.bytes (some bytes.length)) :=
    reads_untagged (by omega) rfl (Nat.lt_of_le_of_lt h (by decide))
  exact hhead.bind (reads_exactly h)

/-! ## Sequences -/

/-- Every item takes what was written for it. -/
theorem reads_times {write : α → List UInt8} {items : List α}
    (h : ∀ a ∈ items, Reads r levels (write a) a) :
    Reads (Reader.times r items.length) levels (items.flatMap write) items := by
  induction items with
  | nil => exact Reads.pure levels []
  | cons a rest ih =>
    have hrest := ih fun b hb => h b (List.mem_cons_of_mem _ hb)
    exact (h a List.mem_cons_self).bind (hrest.bind_end (Reads.pure levels _))

theorem reads_firstItems {write : α → List UInt8} {items : List α}
    (h : ∀ a ∈ items, Reads r levels (write a) a) :
    Reads (Reader.firstItems r items.length (some items.length)) levels (items.flatMap write)
      items := by
  induction items with
  | nil => exact Reads.pure levels []
  | cons a rest ih =>
    have hrest := ih fun b hb => h b (List.mem_cons_of_mem _ hb)
    exact (h a List.mem_cons_self).bind (hrest.bind_end (Reads.pure levels _))

theorem reads_list {write : α → List UInt8} {items : List α} {ofByte? : UInt8 → Option α}
    (hcount : items.length < UInt64.size) (h : ∀ a ∈ items, Reads r levels (write a) a) :
    Reads (Reader.list ofByte? r) (levels + 1) (writeArray write items) items := by
  have hhead : Reads Reader.untagged (levels + 1) (writeHead 4 items.length)
      (.array (some items.length)) := reads_untagged (by omega) rfl hcount
  exact hhead.bind (reads_times h).nested

theorem reads_octets {bytes : List UInt8} (hcount : bytes.length < UInt64.size) :
    Reads (Reader.octets bytes.length) 1 (writeArray (fun b => writeNat b.toNat) bytes) bytes := by
  have hhead : Reads Reader.untagged 1 (writeHead 4 bytes.length)
      (.array (some bytes.length)) := reads_untagged (by omega) rfl hcount
  exact hhead.bind (reads_firstItems fun b _ => reads_byte b).nested

theorem reads_none : Reads (Reader.option r) levels writeNull none := fun _ _ _ => rfl

/-- Content that does not start like nothing is something. -/
theorem reads_some (hr : Reads r levels written a)
    (hhead : ∀ rest, ∃ head left, readHead (written ++ rest) = some (head, left) ∧
      ∀ n, head ≠ .simple n) : Reads (Reader.option r) levels written (some a) := by
  intro depth hdepth rest
  obtain ⟨head, left, hfront, hsimple⟩ := hhead rest
  rw [Reader.option, hfront]
  cases head with
  | simple n => exact absurd rfl (hsimple n)
  | _ => simp [hr depth hdepth]

/-! ## Records -/

namespace Layout

variable {fields : List Type} {layout : Layout fields} {slots slots' : Slots fields}
  {entries : List (String × List UInt8)} {name : String}

/-- Entries of a map that take what has been read of the fields from one state to another. -/
inductive Fills (levels : Nat) (layout : Layout fields) :
    Slots fields → List (String × List UInt8) → Slots fields → Prop
  | nil {slots : Slots fields} : Fills levels layout slots [] slots
  | cons {slots between slots' : Slots fields} {name : String} {content : List UInt8}
      {rest : List (String × List UInt8)}
      (hname : (Utf8.ofString name).length ≤ Reader.nameLimit)
      (hentry : Reads (layout.entry (some name) slots) levels content between)
      (hrest : Fills levels layout between rest slots') :
      Fills levels layout slots ((name, content) :: rest) slots'

theorem Fills.reads (h : Fills levels layout slots entries slots') :
    Reads (layout.entries entries.length slots) levels
      (entries.flatMap fun (name, content) => writeText name ++ content) slots' := by
  induction h with
  | nil => exact Reads.pure levels _
  | cons hname hentry _ ih =>
    rw [List.flatMap_cons, List.append_assoc]
    exact (reads_name hname).bind (hentry.bind ih)

/-- Entries of other names pass a field by. -/
theorem Fills.behind {read : Reader α} {slot : Option α}
    (h : Fills levels layout slots entries slots') (hnew : name ∉ entries.map (·.1)) :
    Fills levels (field name read layout) (slot, slots) entries (slot, slots') := by
  induction h with
  | nil => exact .nil
  | @cons slots between slots' other content rest hname hentry _ ih =>
    rw [List.map_cons, List.mem_cons, not_or] at hnew
    have hother : some other ≠ some name := by simpa [eq_comm] using hnew.1
    refine .cons hname ?_ (ih hnew.2)
    rw [entry_other hother]
    exact hentry.map fun slots => (slot, slots)

/-- All fields of a layout in their order, each with its name and what was written for it. -/
inductive Writes (levels : Nat) :
    {fields : List Type} → Layout fields → List (String × List UInt8) → Slots fields → Prop
  | nil : Writes levels .nil [] ()
  | field {α : Type} {fields : List Type} {read : Reader α} {rest : Layout fields} {a : α}
      {name : String} {content : List UInt8} {others : List (String × List UInt8)}
      {slots : Slots fields} (hread : Reads read levels content a)
      (hname : (Utf8.ofString name).length ≤ Reader.nameLimit)
      (hnew : name ∉ others.map (·.1)) (hrest : Writes levels rest others slots) :
      Writes levels (.field name read rest) ((name, content) :: others) (some a, slots)

theorem Writes.length_eq (h : Writes levels layout entries slots) :
    entries.length = fields.length := by
  induction h with
  | nil => rfl
  | field _ _ _ _ ih => exact congrArg (· + 1) ih

theorem Writes.fills (h : Writes levels layout entries slots) :
    Fills levels layout layout.empty entries slots := by
  induction h with
  | nil => exact .nil
  | @field α fields read rest a name content others slots hread hname hnew _ ih =>
    refine .cons hname ?_ (ih.behind hnew)
    rw [empty, entry_named]
    exact hread.map fun a => (some a, rest.empty)

theorem Writes.reads_record (h : Writes levels layout entries slots)
    (hcount : fields.length < UInt64.size) :
    Reads layout.record (levels + 1) (writeRecord entries) slots := by
  have hhead : Reads Reader.untagged (levels + 1) (writeHead 5 entries.length)
      (.map (some entries.length)) := reads_untagged (by omega) rfl (h.length_eq ▸ hcount)
  exact hhead.bind h.fills.reads.nested

theorem Writes.reads_content (h : Writes levels layout entries slots)
    (hcount : fields.length < UInt64.size) :
    Reads layout.content (levels + 1) (writeRecord entries) slots := by
  have hhead : Reads Reader.head (levels + 1) (writeHead 5 entries.length)
      (.map (some entries.length)) := reads_head (by omega) rfl (h.length_eq ▸ hcount)
  exact hhead.bind h.fills.reads.nested

end Layout

/-! ## Variants -/

theorem dropTags_of_readHead {head : Head} {bytes rest : List UInt8} {fuel : Nat}
    (h : readHead bytes = some (head, rest)) (htag : ∀ t, head ≠ .tag t) :
    dropTags fuel bytes = bytes := by
  cases fuel with
  | zero => rfl
  | succ fuel =>
    rw [dropTags, h]
    cases head with
    | tag t => exact absurd rfl (htag t)
    | _ => rfl

variable {cases : List (String × Reader α)} {name : String} {content : List UInt8}

theorem reads_case (hcase : cases.lookup name = some r)
    (hname : (Utf8.ofString name).length ≤ Reader.nameLimit) (hread : Reads r levels content a) :
    Reads (caseReader cases) (levels + 1) (writeText name ++ content) a := by
  refine Reads.nested ((reads_name hname).bind ?_)
  simp only [hcase]
  exact hread

/-- Without a tag in front a variant looks at the head and goes on with the name. -/
theorem variant_of_readHead {head : Head} {bytes rest : List UInt8} {depth : Nat}
    (h : readHead bytes = some (head, rest)) (htag : ∀ t, head ≠ .tag t) :
    variant cases depth bytes = (nameNext >>= fun _ => caseReader cases) depth bytes := by
  rw [variant_apply, dropTags_of_readHead h htag]

theorem reads_variant_name (hcase : cases.lookup name = some r)
    (hname : (Utf8.ofString name).length ≤ Reader.nameLimit) (hread : Reads r levels [] a) :
    Reads (variant cases) (levels + 1) (writeText name) a := by
  intro depth hdepth rest
  have hlength : (Utf8.ofString name).length < UInt64.size :=
    Nat.lt_of_le_of_lt hname (by decide)
  have hhead : readHead (writeText name ++ rest) =
      some (.text (some (Utf8.ofString name).length), Utf8.ofString name ++ rest) := by
    rw [writeText, List.append_assoc]
    exact readHead_writeHead (by omega) rfl hlength _
  have hnext : nameNext depth (writeText name ++ rest) = some ((), writeText name ++ rest) := by
    simp only [nameNext, hhead]
  rw [variant_of_readHead hhead nofun, Reader.bind_apply, hnext]
  have := reads_case hcase hname hread depth hdepth rest
  rwa [List.append_nil] at this

theorem reads_variant (hcase : cases.lookup name = some r)
    (hname : (Utf8.ofString name).length ≤ Reader.nameLimit) (hread : Reads r levels content a) :
    Reads (variant cases) (levels + 1) (writeVariant name content) a := by
  have hwritten : writeVariant name content = writeHead 5 1 ++ (writeText name ++ content) := by
    simp [writeVariant, writeRecord]
  intro depth hdepth rest
  have hhead (rest : List UInt8) : readHead (writeHead 5 1 ++ rest) = some (.map (some 1), rest) :=
    readHead_writeHead (by omega) rfl (by decide) rest
  have hnext : Reads nameNext (levels + 1) (writeHead 5 1) () := by
    intro depth _ rest
    simp only [nameNext, hhead]
  have hfront := hhead (writeText name ++ content ++ rest)
  rw [← List.append_assoc] at hfront
  rw [hwritten, variant_of_readHead hfront nofun]
  exact hnext.bind (reads_case hcase hname hread) depth hdepth rest

end ValueTree.Cbor
