import ValueTree.Payload.Cbor
import ValueTree.Proofs.Cbor.Taking
import ValueTree.Proofs.Cbor.Writing

/-!
# Payloads on the wire

Every payload is read as it was written, unless something in it is too long to be counted. Whatever
is read has nothing in it that is longer than the bytes it was read from.
-/

namespace ValueTree

open Cbor

/-! ## Sound payloads -/

/-- A text whose bytes are less than `limit`. -/
def TextWithin (limit : Nat) (s : String) : Prop := (Utf8.ofString s).length < limit

/-- Every text, every byte payload and every list is shorter than `limit`. -/
def Payload.Within (limit : Nat) : Payload → Prop
  | text s => TextWithin limit s
  | enum e => ListWithin limit (fun enumerator => TextWithin limit enumerator.name) e.enumerators
  | multi bytes => bytes.length < limit
  | set items | unorderedSet items | vector items => ListWithin limit (TextWithin limit) items
  | _ => True

variable {limit : Nat}

instance : DecidablePred (TextWithin limit) := fun _ => inferInstanceAs (Decidable (_ < _))

instance : DecidablePred (Payload.Within limit)
  | .text s => inferInstanceAs (Decidable (TextWithin limit s))
  | .enum e => inferInstanceAs (Decidable (ListWithin limit _ e.enumerators))
  | .multi bytes => inferInstanceAs (Decidable (bytes.length < limit))
  | .set items | .unorderedSet items | .vector items =>
    inferInstanceAs (Decidable (ListWithin limit (TextWithin limit) items))
  | .unset | .bool _ | .signed _ | .unsigned _ | .ipv4 _ | .ipv6 _ | .eui48 _ | .udid _
  | .timeVal .. | .timeSpec .. | .struct | .container _ => inferInstanceAs (Decidable True)

/-! ## Parts -/

theorem reads_width (w : Width) : Reads Width.fromCbor 1 w.toCbor w :=
  reads_variant_name (by cases w <;> rfl) (by cases w <;> decide) (Reads.pure 0 w)

theorem gives_width : Gives limit 1 Width.fromCbor fun _ => True := by
  refine gives_variant fun case hcase => ?_
  obtain ⟨w, -, rfl⟩ := List.mem_map.mp hcase
  exact Gives.pure trivial

theorem reads_keyOrder (order : KeyOrder) : Reads KeyOrder.fromCbor 1 order.toCbor order := by
  cases order with
  | ordered => exact reads_variant_name rfl (by decide) (Reads.pure 0 _)
  | unordered => exact reads_variant_name rfl (by decide) (Reads.pure 0 _)

theorem gives_keyOrder : Gives limit 1 KeyOrder.fromCbor fun _ => True := by
  apply gives_variant
  simp only [List.forall_mem_cons]
  exact ⟨Gives.pure trivial, Gives.pure trivial, nofun⟩

/-- A bounded integer of a type whose numbers are read as they are written. -/
theorem reads_bounded {α : Type} [WholeNumber α] {number : Reader α}
    (h : ∀ a : α, Reads number 1 (writeInt (WholeNumber.toInt a)) a) (n : Bounded α) :
    Reads (Bounded.fromCbor number) 2 n.toCbor n := by
  have hwrites : (Bounded.layout number).Writes 1 [("width", n.width.toCbor),
      ("value", writeInt n.number), ("min", writeInt (WholeNumber.toInt n.lower)),
      ("max", writeInt (WholeNumber.toInt n.upper))]
      (some n.width, some n.value, some n.lower, some n.upper, ()) :=
    .field (reads_width n.width) (by decide) (by simp) <|
      .field (h n.value) (by decide) (by simp) <|
      .field (h n.lower) (by decide) (by simp) <|
      .field (h n.upper) (by decide) (by simp) .nil
  exact (hwrites.reads_record (by simp [UInt64.size])).bind_end (Reads.pure 2 n)

theorem gives_bounded {α : Type} [WholeNumber α] {number : Reader α}
    (h : Gives limit 1 number fun _ => True) :
    Gives limit 1 (Bounded.fromCbor number) fun _ => True := by
  have hlayout : (Bounded.layout number).Gives limit
      (fun _ => True, fun _ => True, fun _ => True, fun _ => True, ()) :=
    ⟨gives_width, h, h, h, trivial⟩
  refine hlayout.record.bind fun slots _ => ?_
  refine (Gives.ofOption fun _ _ => trivial).bind_any fun width => ?_
  exact (Gives.ofOption fun _ _ => trivial).bind_any fun value => Gives.pure trivial

theorem reads_enumerator {e : Enumerator} (h : TextWithin UInt64.size e.name) :
    Reads Enumerator.fromCbor 1 e.toCbor e := by
  have hwrites : Enumerator.layout.Writes 0
      [("name", writeText e.name), ("value", writeInt e.value.toInt)]
      (some e.name, some e.value, ()) :=
    .field (reads_string h) (by decide) (by simp) <|
      .field (reads_int64 e.value) (by decide) (by simp) .nil
  exact (hwrites.reads_record (by decide)).bind_end (Reads.pure 1 e)

theorem gives_enumerator :
    Gives limit 1 Enumerator.fromCbor fun e => TextWithin limit e.name := by
  have hlayout : Enumerator.layout.Gives limit (TextWithin limit, fun _ => True, ()) :=
    ⟨gives_string, gives_int64, trivial⟩
  refine hlayout.record.bind fun slots hslots => ?_
  refine (Gives.ofOption hslots.1).bind fun name hname => ?_
  exact (Gives.ofOption fun _ _ => trivial).bind_any fun value => Gives.pure hname

theorem reads_enumeration {e : Enumeration} (h : (Payload.enum e).Within UInt64.size) :
    Reads Enumeration.fromCbor 3 e.toCbor e := by
  have henumerators : Reads (Reader.listOf Enumerator.fromCbor) 2
      (writeArray Enumerator.toCbor e.enumerators) e.enumerators :=
    reads_list h.length_lt fun enumerator hmem => reads_enumerator (h.all enumerator hmem)
  have hwrites : Enumeration.layout.Writes 2 [("value", writeInt e.value.toInt),
      ("enumerators", writeArray Enumerator.toCbor e.enumerators)]
      (some e.value, some e.enumerators, ()) :=
    .field (reads_int64 e.value) (by decide) (by simp) <|
      .field henumerators (by decide) (by simp) .nil
  exact (hwrites.reads_record (by decide)).bind_end (Reads.pure 3 e)

theorem gives_enumeration (hlimit : 0 < limit) :
    Gives limit 1 Enumeration.fromCbor fun e => (Payload.enum e).Within limit := by
  have hlayout : Enumeration.layout.Gives limit (fun _ => True,
      ListWithin limit fun enumerator => TextWithin limit enumerator.name, ()) :=
    ⟨gives_int64, gives_enumerator.listOf, trivial⟩
  refine hlayout.record.bind fun (value, enumerators, _) hslots => ?_
  refine (Gives.ofOption fun _ _ => trivial).bind_any fun value => Gives.pure ?_
  cases enumerators with
  | none => exact ⟨hlimit, nofun⟩
  | some enumerators => exact hslots.2.1 enumerators rfl

theorem Octets.ofList?_bytes {n : Nat} (o : Octets n) : Octets.ofList? o.bytes = some o := by
  simp [Octets.ofList?, o.length_eq]

theorem reads_octets_of {n : Nat} (o : Octets n) (hn : n < UInt64.size) :
    Reads Octets.fromCbor 1 o.toCbor o := by
  have hread : Reads (Reader.octets n) 1 o.toCbor o.bytes := by
    obtain ⟨bytes, rfl⟩ := o
    exact reads_octets hn
  refine hread.bind_end ?_
  rw [o.ofList?_bytes]
  exact Reads.ofOption 1 o

theorem gives_octets_of {n : Nat} :
    Gives limit 1 (Octets.fromCbor : Reader (Octets n)) fun _ => True :=
  (gives_octets n).bind_any fun _ => Gives.ofOption fun _ _ => trivial

/-- An address that is given does not start like one that is not. -/
theorem reads_address {n : Nat} (address : Option (Octets n)) (hn : n < UInt64.size) :
    Reads (Reader.option Octets.fromCbor) 1 (writeOption Octets.toCbor address) address := by
  cases address with
  | none => exact reads_none
  | some o =>
    refine reads_some (reads_octets_of o hn) fun rest => ?_
    refine ⟨.array (some o.bytes.length), o.bytes.flatMap writeByte ++ rest, ?_, nofun⟩
    rw [writeOption, Octets.toCbor, writeArray, List.append_assoc]
    exact readHead_writeHead (by omega) rfl (by rwa [o.length_eq]) _

theorem reads_time (finer : String) (sec part : Int64) (hfiner : "sec" ≠ finer)
    (hname : (Utf8.ofString finer).length ≤ Reader.nameLimit) :
    Reads (Payload.timeFromCbor finer) 1 (Payload.timeCbor finer sec part) (sec, part) := by
  have hwrites : (Payload.timeLayout finer).Writes 0
      [("sec", writeInt sec.toInt), (finer, writeInt part.toInt)] (some sec, some part, ()) :=
    .field (reads_int64 sec) (by decide) (by simpa using hfiner) <|
      .field (reads_int64 part) hname (by simp) .nil
  exact (hwrites.reads_record (by decide)).bind_end (Reads.pure 1 (sec, part))

theorem gives_time (finer : String) :
    Gives limit 1 (Payload.timeFromCbor finer) fun _ => True := by
  have hlayout : (Payload.timeLayout finer).Gives limit (fun _ => True, fun _ => True, ()) :=
    ⟨gives_int64, gives_int64, trivial⟩
  refine hlayout.record.bind fun slots _ => ?_
  refine (Gives.ofOption fun _ _ => trivial).bind_any fun sec => ?_
  exact (Gives.ofOption fun _ _ => trivial).bind_any fun part => Gives.pure trivial

/-! ## All kinds -/

theorem reads_payload {p : Payload} (h : p.Within UInt64.size) :
    Reads Payload.fromCbor 4 p.toCbor p := by
  have hstrings {items : List String} (h : ListWithin UInt64.size (TextWithin UInt64.size) items) :
      Reads Payload.strings 3 (writeArray writeText items) items :=
    reads_list h.length_lt fun s hmem => reads_string (h.all s hmem)
  cases p with
  | unset => exact reads_variant_name rfl (by decide) (Reads.pure 3 _)
  | bool b => exact reads_variant rfl (by decide) ((reads_bool b).map Payload.bool)
  | text s => exact reads_variant rfl (by decide) ((reads_string h).map Payload.text)
  | signed n =>
    have hread := (reads_bounded reads_int64 n).mono (show 2 ≤ 3 by decide)
    exact reads_variant rfl (by decide) (hread.map Payload.signed)
  | unsigned n =>
    have hread := (reads_bounded reads_uint64 n).mono (show 2 ≤ 3 by decide)
    exact reads_variant rfl (by decide) (hread.map Payload.unsigned)
  | enum e => exact reads_variant rfl (by decide) ((reads_enumeration h).map Payload.enum)
  | ipv4 address =>
    have hread := (reads_address address (by decide)).mono (show 1 ≤ 3 by decide)
    exact reads_variant rfl (by decide) (hread.map Payload.ipv4)
  | ipv6 address =>
    have hread := (reads_address address (by decide)).mono (show 1 ≤ 3 by decide)
    exact reads_variant rfl (by decide) (hread.map Payload.ipv6)
  | eui48 address =>
    have hread := (reads_octets_of address (by decide)).mono (show 1 ≤ 3 by decide)
    exact reads_variant rfl (by decide) (hread.map Payload.eui48)
  | udid identifier =>
    have hlength : identifier.bytes.length ≤ Reader.nameLimit := by
      rw [identifier.length_eq]
      decide
    refine reads_variant rfl (by decide) ((reads_shortBytes hlength).bind_end ?_)
    rw [identifier.ofList?_bytes]
    exact (Reads.ofOption 3 identifier).map Payload.udid
  | timeVal sec usec =>
    have hread := (reads_time "usec" sec usec (by decide) (by decide)).mono (show 1 ≤ 3 by decide)
    exact reads_variant rfl (by decide) (hread.bind_end (Reads.pure 3 _))
  | timeSpec sec nsec =>
    have hread := (reads_time "nsec" sec nsec (by decide) (by decide)).mono (show 1 ≤ 3 by decide)
    exact reads_variant rfl (by decide) (hread.bind_end (Reads.pure 3 _))
  | multi bytes =>
    have hread : Reads (Reader.list some Reader.byte) 3 (writeArray writeByte bytes) bytes :=
      reads_list h fun b _ => reads_byte b
    exact reads_variant rfl (by decide) (hread.map Payload.multi)
  | set items => exact reads_variant rfl (by decide) ((hstrings h).map Payload.set)
  | unorderedSet items =>
    exact reads_variant rfl (by decide) ((hstrings h).map Payload.unorderedSet)
  | vector items => exact reads_variant rfl (by decide) ((hstrings h).map Payload.vector)
  | struct => exact reads_variant_name rfl (by decide) (Reads.pure 3 _)
  | container order =>
    have hread := (reads_keyOrder order).mono (show 1 ≤ 3 by decide)
    exact reads_variant rfl (by decide) (hread.map Payload.container)

theorem gives_payload (hlimit : 0 < limit) :
    Gives limit 1 Payload.fromCbor (Payload.Within limit) := by
  have hstrings : Gives limit 1 Payload.strings (ListWithin limit (TextWithin limit)) :=
    gives_string.listOf
  have htime (finer : String) (make : Int64 → Int64 → Payload)
      (hmake : ∀ sec part, (make sec part).Within limit) : Gives limit 0 (do
        let time ← Payload.timeFromCbor finer
        pure (make time.1 time.2)) (Payload.Within limit) :=
    ((gives_time finer).bind_any fun _ => Gives.pure (hmake _ _)).weaken
  apply gives_variant
  simp only [Payload.cases, List.forall_mem_cons]
  refine ⟨Gives.pure trivial, gives_bool.map fun _ _ => trivial, gives_string.map fun _ h => h,
    (gives_bounded gives_int64).map fun _ _ => trivial,
    (gives_bounded gives_uint64).map fun _ _ => trivial,
    (gives_enumeration hlimit).map fun _ h => h, gives_octets_of.option.map fun _ _ => trivial,
    gives_octets_of.option.map fun _ _ => trivial, gives_octets_of.map fun _ _ => trivial, ?_,
    htime "usec" .timeVal fun _ _ => trivial, htime "nsec" .timeSpec fun _ _ => trivial, ?_,
    hstrings.map fun _ h => h, hstrings.map fun _ h => h, hstrings.map fun _ h => h,
    Gives.pure trivial, gives_keyOrder.map fun _ _ => trivial,
    List.forall_mem_nil _⟩
  · refine (gives_shortBytes.bind_any fun bytes => ?_).weaken
    exact (Gives.ofOption fun _ _ => trivial).map fun _ _ => trivial
  · exact (gives_byte.list fun _ _ _ => trivial).map fun _ h => h.length_lt

end ValueTree
