import ValueTree.Message.Cbor
import ValueTree.Proofs.Id.Text
import ValueTree.Proofs.Payload.Cbor

/-!
# Messages on the wire

Every message with proper ids is read as it was written, whatever follows it, and every message that
is read has proper ids and is read the same when it is written again.
-/

namespace ValueTree

open Cbor

/-! ## Sound messages

The ids are proper, and every text, every byte payload and every list is shorter than a limit. -/

/-- On the wire an id is a text. -/
structure Id.Within (limit : Nat) (i : Id) : Prop where
  wellFormed : i.WellFormed
  text : TextWithin limit i.toText

structure Value.Within (limit : Nat) (v : Value) : Prop where
  id : v.id.Within limit
  payload : v.payload.Within limit

def Update.Within (limit : Nat) : Update → Prop
  | set value => value.Within limit
  | addKey container key | removeKey container key =>
    container.Within limit ∧ TextWithin limit key

def Message.Within (limit : Nat) : Message → Prop
  | subscribe _ ids | multiGet _ ids => ListWithin limit (Id.Within limit) ids
  | valueChanged updates => ListWithin limit (Update.Within limit) updates
  | valueRemoved ids tokens => ListWithin limit (Id.Within limit) ids ∧ tokens.length < limit
  | multiSet _ values | result _ _ values => ListWithin limit (Value.Within limit) values
  | unsubscribe _ | syncCompleted => True

/-- The ids that a message names. -/
def Message.ids : Message → List Id
  | subscribe _ ids | multiGet _ ids | valueRemoved ids _ => ids
  | valueChanged updates => updates.map Update.id
  | multiSet _ values | result _ _ values => values.map (·.id)
  | unsubscribe _ | syncCompleted => []

variable {limit : Nat}

instance : DecidablePred (Id.Within limit) := fun i =>
  decidable_of_iff (i.WellFormed ∧ TextWithin limit i.toText)
    ⟨fun h => ⟨h.1, h.2⟩, fun h => ⟨h.1, h.2⟩⟩

instance : DecidablePred (Value.Within limit) := fun v =>
  decidable_of_iff (v.id.Within limit ∧ v.payload.Within limit)
    ⟨fun h => ⟨h.1, h.2⟩, fun h => ⟨h.1, h.2⟩⟩

instance : DecidablePred (Update.Within limit)
  | .set value => inferInstanceAs (Decidable (value.Within limit))
  | .addKey container key | .removeKey container key =>
    inferInstanceAs (Decidable (container.Within limit ∧ TextWithin limit key))

instance : DecidablePred (Message.Within limit)
  | .subscribe _ ids | .multiGet _ ids =>
    inferInstanceAs (Decidable (ListWithin limit (Id.Within limit) ids))
  | .valueChanged updates =>
    inferInstanceAs (Decidable (ListWithin limit (Update.Within limit) updates))
  | .valueRemoved ids tokens =>
    inferInstanceAs (Decidable (ListWithin limit (Id.Within limit) ids ∧ tokens.length < limit))
  | .multiSet _ values | .result _ _ values =>
    inferInstanceAs (Decidable (ListWithin limit (Value.Within limit) values))
  | .unsubscribe _ | .syncCompleted => inferInstanceAs (Decidable True)

theorem Message.Within.wellFormed {m : Message} (h : m.Within limit) :
    ∀ id ∈ m.ids, id.WellFormed := by
  have hupdate (u : Update) (hu : u.Within limit) : u.id.WellFormed := by
    cases u with
    | set value => exact hu.id.wellFormed
    | addKey container key | removeKey container key => exact hu.1.wellFormed
  cases m with
  | subscribe sequence ids | multiGet sequence ids => exact fun id hid => (h.all id hid).wellFormed
  | valueRemoved ids tokens => exact fun id hid => (h.1.all id hid).wellFormed
  | valueChanged updates =>
    exact List.forall_mem_map.mpr fun u hu => hupdate u (h.all u hu)
  | multiSet sequence values | result sequence status values =>
    exact List.forall_mem_map.mpr fun v hv => (h.all v hv).id.wellFormed
  | unsubscribe sequence | syncCompleted => exact nofun

/-! ## Ids and values -/

theorem reads_id {i : Id} (h : i.Within UInt64.size) : Reads Id.fromCbor 0 i.toCbor i := by
  refine (reads_string h.text).bind_end ?_
  rw [Id.parse_eq_ok.mpr ⟨h.wellFormed, rfl⟩]
  exact Reads.pure 0 i

theorem gives_id : Gives limit 1 Id.fromCbor (Id.Within limit) := by
  refine gives_string.bind fun text htext => ?_
  cases hparse : Id.parse text with
  | error fault => exact Gives.fail
  | ok i =>
    obtain ⟨hi, rfl⟩ := Id.parse_eq_ok.mp hparse
    exact Gives.pure ⟨hi, htext⟩

theorem reads_ids {ids : List Id} (h : ListWithin UInt64.size (Id.Within UInt64.size) ids) :
    Reads Message.idsFromCbor 1 (writeArray Id.toCbor ids) ids :=
  reads_list h.length_lt fun i hmem => reads_id (h.all i hmem)

theorem reads_access (access : Access) : Reads Access.fromCbor 1 access.toCbor access := by
  cases access with
  | readOnly => exact reads_variant_name rfl (by decide) (Reads.pure 0 _)
  | readWrite => exact reads_variant_name rfl (by decide) (Reads.pure 0 _)

theorem gives_access : Gives limit 1 Access.fromCbor fun _ => True := by
  apply gives_variant
  simp only [List.forall_mem_cons]
  exact ⟨Gives.pure trivial, Gives.pure trivial, nofun⟩

theorem reads_value {v : Value} (h : v.Within UInt64.size) : Reads Value.fromCbor 5 v.toCbor v := by
  have hwrites : Value.layout.Writes 4
      [("id", v.id.toCbor), ("access", v.access.toCbor), ("data", v.payload.toCbor)]
      (some v.id, some v.access, some v.payload, ()) :=
    .field ((reads_id h.id).mono (by decide)) (by decide) (by simp) <|
      .field ((reads_access v.access).mono (by decide)) (by decide) (by simp) <|
      .field (reads_payload h.payload) (by decide) (by simp) .nil
  exact (hwrites.reads_record (by decide)).bind_end (Reads.pure 5 v)

theorem gives_value (hlimit : 0 < limit) : Gives limit 1 Value.fromCbor (Value.Within limit) := by
  have hlayout : Value.layout.Gives limit
      (Id.Within limit, fun _ => True, Payload.Within limit, ()) :=
    ⟨gives_id, gives_access, gives_payload hlimit, trivial⟩
  refine hlayout.record.bind fun slots hslots => ?_
  refine (Gives.ofOption hslots.1).bind fun id hid => ?_
  exact (Gives.ofOption hslots.2.2.1).bind fun payload hpayload => Gives.pure ⟨hid, hpayload⟩

theorem reads_values {values : List Value}
    (h : ListWithin UInt64.size (Value.Within UInt64.size) values) :
    Reads Message.valuesFromCbor 6 (writeArray Value.toCbor values) values :=
  reads_list h.length_lt fun v hmem => reads_value (h.all v hmem)

/-! ## Updates and results -/

theorem reads_keyFrom {make : Id → String → Update} {container : Id} {key : String}
    (hcontainer : container.Within UInt64.size) (hkey : TextWithin UInt64.size key) :
    Reads (Update.keyFrom make) 6 (Update.keyCbor container key) (make container key) := by
  have hwrites : Update.keyLayout.Writes 5
      [("container", container.toCbor), ("key", writeText key)] (some container, some key, ()) :=
    .field ((reads_id hcontainer).mono (by decide)) (by decide) (by simp) <|
      .field (reads_string hkey) (by decide) (by simp) .nil
  exact (hwrites.reads_content (by decide)).bind_end (Reads.pure 6 _)

theorem reads_update {u : Update} (h : u.Within UInt64.size) :
    Reads Update.fromCbor 7 u.toCbor u := by
  cases u with
  | set value =>
    have hwrites : Update.setLayout.Writes 5 [("value", value.toCbor)] (some value, ()) :=
      .field (reads_value h) (by decide) (by simp) .nil
    have hcontent := hwrites.reads_content (by decide)
    exact reads_variant rfl (by decide) (hcontent.bind_end (Reads.pure 6 _))
  | addKey container key => exact reads_variant rfl (by decide) (reads_keyFrom h.1 h.2)
  | removeKey container key => exact reads_variant rfl (by decide) (reads_keyFrom h.1 h.2)

theorem gives_keyFrom {make : Id → String → Update}
    (hmake : ∀ {container key}, container.Within limit → TextWithin limit key →
      (make container key).Within limit) :
    Gives limit 0 (Update.keyFrom make) (Update.Within limit) := by
  have hlayout : Update.keyLayout.Gives limit (Id.Within limit, TextWithin limit, ()) :=
    ⟨gives_id, gives_string, trivial⟩
  refine (hlayout.content.bind fun slots hslots => ?_).weaken
  refine (Gives.ofOption hslots.1).bind fun container hcontainer => ?_
  exact (Gives.ofOption hslots.2.1).bind fun key hkey => Gives.pure (hmake hcontainer hkey)

theorem gives_update (hlimit : 0 < limit) :
    Gives limit 1 Update.fromCbor (Update.Within limit) := by
  have hset : Update.setLayout.Gives limit (Value.Within limit, ()) :=
    ⟨gives_value hlimit, trivial⟩
  apply gives_variant
  simp only [List.forall_mem_cons]
  refine ⟨?_, gives_keyFrom And.intro, gives_keyFrom And.intro, nofun⟩
  refine (hset.content.bind fun slots hslots => ?_).weaken
  exact (Gives.ofOption hslots.1).bind fun value hvalue => Gives.pure hvalue

theorem reads_status (status : Status) : Reads Status.fromCbor 1 status.toCbor status := by
  cases status with
  | success => exact reads_variant_name rfl (by decide) (Reads.pure 0 _)
  | notFound => exact reads_variant_name rfl (by decide) (Reads.pure 0 _)
  | other code => exact reads_variant rfl (by decide) ((reads_uint32 code).map Status.other)

theorem gives_status : Gives limit 1 Status.fromCbor fun _ => True := by
  apply gives_variant
  simp only [List.forall_mem_cons]
  exact ⟨Gives.pure trivial, Gives.pure trivial, gives_uint32.map fun _ _ => trivial, nofun⟩

/-! ## Messages -/

namespace Message

theorem reads_numbered {α : Type} {name : String} {read : Reader α} {make : UInt32 → α → Message}
    {written : List UInt8} {a : α} (sequence : UInt32) (hread : Reads read 8 written a)
    (hname : (Utf8.ofString name).length ≤ Reader.nameLimit) (hother : "sequence_no" ≠ name) :
    Reads (numberedFrom name read make) 9 (writeRecord [sequenceCbor sequence, (name, written)])
      (make sequence a) := by
  have hwrites : (numberedLayout name read).Writes 8 [sequenceCbor sequence, (name, written)]
      (some sequence, some a, ()) :=
    .field (reads_uint32 sequence) (by decide) (by simpa using hother) <|
      .field hread hname (by simp) .nil
  exact (hwrites.reads_content (by simp [UInt64.size])).bind_end (Reads.pure 9 _)

theorem gives_numbered {α : Type} {name : String} {read : Reader α} {make : UInt32 → α → Message}
    {P : α → Prop} (hread : Gives limit 1 read P)
    (hmake : ∀ sequence a, P a → (make sequence a).Within limit) :
    Gives limit 0 (numberedFrom name read make) (Message.Within limit) := by
  have hlayout : (numberedLayout name read).Gives limit (fun _ => True, P, ()) :=
    ⟨gives_uint32, hread, trivial⟩
  refine (hlayout.content.bind fun slots hslots => ?_).weaken
  refine (Gives.ofOption fun _ _ => trivial).bind_any fun sequence => ?_
  exact (Gives.ofOption hslots.2.1).bind fun a ha => Gives.pure (hmake sequence a ha)

theorem reads_message {m : Message} (h : m.Within UInt64.size) :
    Reads Message.fromCbor 10 m.encode m := by
  have hids {ids : List Id} (h : ListWithin UInt64.size (Id.Within UInt64.size) ids) :
      Reads idsFromCbor 8 (writeArray Id.toCbor ids) ids := (reads_ids h).mono (by decide)
  have hvalues {values : List Value}
      (h : ListWithin UInt64.size (Value.Within UInt64.size) values) :
      Reads valuesFromCbor 8 (writeArray Value.toCbor values) values :=
    (reads_values h).mono (by decide)
  cases m with
  | subscribe sequence ids =>
    exact reads_variant rfl (by decide) (reads_numbered sequence (hids h) (by decide) (by decide))
  | unsubscribe sequence =>
    have hwrites : unsubscribeLayout.Writes 8 [sequenceCbor sequence] (some sequence, ()) :=
      .field (reads_uint32 sequence) (by decide) (by simp) .nil
    have hcontent := hwrites.reads_content (by decide)
    exact reads_variant rfl (by decide) (hcontent.bind_end (Reads.pure 9 _))
  | valueChanged updates =>
    have hupdates : Reads (Reader.listOf Update.fromCbor) 8 (writeArray Update.toCbor updates)
        updates := reads_list h.length_lt fun u hmem => reads_update (h.all u hmem)
    have hwrites : changedLayout.Writes 8 [("values", writeArray Update.toCbor updates)]
        (some updates, ()) := .field hupdates (by decide) (by simp) .nil
    have hcontent := hwrites.reads_content (by decide)
    exact reads_variant rfl (by decide) (hcontent.bind_end (Reads.pure 9 _))
  | valueRemoved ids tokens =>
    have htoken (token : Token) : Reads tokenFromCbor 7 (tokenCbor token) token :=
      (reads_uint64 token.raw).map Token.mk
    have htokens : Reads tokensFromCbor 8 (writeArray tokenCbor tokens) tokens :=
      reads_list h.2 fun token _ => htoken token
    have hwrites : removedLayout.Writes 8 [idsCbor ids, ("tokens", writeArray tokenCbor tokens)]
        (some ids, some tokens, ()) :=
      .field (hids h.1) (by decide) (by simp) <| .field htokens (by decide) (by simp) .nil
    have hcontent := hwrites.reads_content (by decide)
    exact reads_variant rfl (by decide) (hcontent.bind_end (Reads.pure 9 _))
  | multiGet sequence ids =>
    exact reads_variant rfl (by decide) (reads_numbered sequence (hids h) (by decide) (by decide))
  | multiSet sequence values =>
    exact reads_variant rfl (by decide)
      (reads_numbered sequence (hvalues h) (by decide) (by decide))
  | result sequence status values =>
    have hwrites : resultLayout.Writes 8
        [sequenceCbor sequence, ("status", status.toCbor), valuesCbor values]
        (some sequence, some status, some values, ()) :=
      .field (reads_uint32 sequence) (by decide) (by simp [valuesCbor]) <|
        .field ((reads_status status).mono (by decide)) (by decide) (by simp [valuesCbor]) <|
        .field (hvalues h) (by decide) (by simp) .nil
    have hcontent := hwrites.reads_content (by decide)
    exact reads_variant rfl (by decide) (hcontent.bind_end (Reads.pure 9 _))
  | syncCompleted => exact reads_variant_name rfl (by decide) (Reads.pure 9 _)

theorem gives_message (hlimit : 0 < limit) :
    Gives limit 1 Message.fromCbor (Message.Within limit) := by
  have hids : Gives limit 1 idsFromCbor (ListWithin limit (Id.Within limit)) := gives_id.listOf
  have hvalues : Gives limit 1 valuesFromCbor (ListWithin limit (Value.Within limit)) :=
    (gives_value hlimit).listOf
  apply gives_variant
  simp only [Message.cases, List.forall_mem_cons]
  refine ⟨gives_numbered hids fun _ _ h => h, ?_, ?_, ?_, gives_numbered hids fun _ _ h => h,
    gives_numbered hvalues fun _ _ h => h, ?_, Gives.pure trivial, nofun⟩
  · have hlayout : unsubscribeLayout.Gives limit (fun _ => True, ()) :=
      ⟨gives_uint32, trivial⟩
    refine (hlayout.content.bind fun slots _ => ?_).weaken
    exact (Gives.ofOption fun _ _ => trivial).map fun _ _ => trivial
  · have hlayout : changedLayout.Gives limit (ListWithin limit (Update.Within limit), ()) :=
      ⟨(gives_update hlimit).listOf, trivial⟩
    refine (hlayout.content.bind fun slots hslots => ?_).weaken
    exact (Gives.ofOption hslots.1).map fun _ h => h
  · have htoken : Gives limit 1 tokenFromCbor fun _ => True :=
      gives_uint64.bind_any fun _ => Gives.pure trivial
    have htokens : Gives limit 1 tokensFromCbor (ListWithin limit fun _ => True) :=
      htoken.list fun _ _ _ => trivial
    have hlayout : removedLayout.Gives limit
        (ListWithin limit (Id.Within limit), ListWithin limit fun _ => True, ()) :=
      ⟨hids, htokens, trivial⟩
    refine (hlayout.content.bind fun slots hslots => ?_).weaken
    refine (Gives.ofOption hslots.1).bind fun ids hids => ?_
    exact (Gives.ofOption hslots.2.1).map fun tokens htokens => ⟨hids, htokens.length_lt⟩
  · have hlayout : resultLayout.Gives limit
        (fun _ => True, fun _ => True, ListWithin limit (Value.Within limit), ()) :=
      ⟨gives_uint32, gives_status, hvalues, trivial⟩
    refine (hlayout.content.bind fun slots hslots => ?_).weaken
    refine (Gives.ofOption fun _ _ => trivial).bind_any fun sequence => ?_
    refine (Gives.ofOption fun _ _ => trivial).bind_any fun status => ?_
    exact (Gives.ofOption hslots.2.2.1).map fun _ h => h

/-! ## There and back -/

variable {m : Message} {bytes : List UInt8}

theorem decode?_encode_append (h : m.Within UInt64.size) (rest : List UInt8) :
    decode? (m.encode ++ rest) = some m := by
  rw [decode?, reads_message h depthLimit (by decide) rest, Option.map_some]

theorem within_of_decode? (hlimit : bytes.length < limit) (h : decode? bytes = some m) :
    m.Within limit := by
  obtain ⟨⟨found, rest⟩, hread, rfl⟩ := Option.map_eq_some_iff.mp h
  exact (gives_message (by omega) depthLimit bytes found rest hlimit hread).2

/-- A message with proper ids and nothing in it that is too long to be counted is read as it was
written, whatever follows it. Whatever is read has proper ids, and is read the same when it is
written again, as long as the bytes themselves can be counted. -/
theorem round_trip :
    (∀ m : Message, m.Within UInt64.size → ∀ rest, decode? (m.encode ++ rest) = some m) ∧
      ∀ bytes m, decode? bytes = some m →
        (∀ id ∈ m.ids, id.WellFormed) ∧
          (bytes.length < UInt64.size → ∀ rest, decode? (m.encode ++ rest) = some m) := by
  refine ⟨fun m h rest => decode?_encode_append h rest, fun bytes m h => ⟨?_, ?_⟩⟩
  · exact (within_of_decode? (Nat.lt_succ_self bytes.length) h).wellFormed
  · exact fun hlength rest => decode?_encode_append (within_of_decode? hlength h) rest

/-- Content with a head of each size, and bytes that are not in the shortest form: tags, open
lengths and numbers with leading zeros. -/
theorem round_trip_instances :
    let enumeration : Enumeration := ⟨-1, [⟨"off", -1⟩, ⟨"", 256⟩]⟩
    let m : Message := .result 4294967295 (.other 65536) [
      ⟨.root, .readOnly, .signed ⟨.i64, Int64.minValue, -25, 24⟩⟩,
      ⟨⟨["a", "+", "ü"]⟩, .readWrite, .enum enumeration⟩,
      ⟨⟨["b"]⟩, .readWrite, .ipv4 (some ⟨[10, 0, 255, 24], rfl⟩)⟩,
      ⟨⟨["b", "v6"]⟩, .readWrite, .ipv6 none⟩,
      ⟨⟨["c"]⟩, .readWrite, .unorderedSet ["", "x"]⟩]
    let loose := [0xC6, 0xB9, 0, 1] ++ writeText "value_changed" ++ [0xBF] ++ writeText "values" ++
      [0xD8, 0x18, 0x9F, 0xA1] ++ writeText "add_to_container" ++ [0x82] ++
      [0x7F, 0x61, 0x61, 0x62, 0x2E, 0x62, 0xFF] ++ writeText "k" ++ [0xFF, 0xFF, 0]
    let keyed : Message := .valueChanged [.addKey ⟨["a", "b"]⟩ "k"]
    m.Within UInt64.size ∧ decode? (m.encode ++ [0xFF]) = some m ∧
      decode? loose = some keyed ∧ decode? (keyed.encode ++ [0xFF]) = some keyed := by
  intro enumeration m loose keyed
  have hm : m.Within UInt64.size := by decide +kernel
  have hloose : decode? loose = some keyed := by decide +kernel
  obtain ⟨hthere, hback⟩ := round_trip
  exact ⟨hm, hthere m hm _, hloose, (hback loose keyed hloose).2 (by decide +kernel) _⟩

end Message

end ValueTree
