import ValueTree.Sync.Client

/-!
# Frames in a stream

What a stream of bytes says is laid down without a decoder: it is a row of frames, and behind them
the front of one more. However such a stream is cut into pieces, the client takes these frames off
it.

The client takes a stream for what it is if nothing of an earlier stream is left in its buffer, and
only then.
-/

namespace ValueTree

/-! ## Numbers -/

namespace Cbor

theorem le_ofBigEndian (front : List UInt8) (b : UInt8) (back : List UInt8) :
    b.toNat ≤ ofBigEndian (front ++ b :: back) := by
  rw [ofBigEndian, List.foldl_append, List.foldl_cons]
  generalize front.foldl _ 0 = n
  have hmono (m : Nat) : m ≤ back.foldl (fun n b => 256 * n + b.toNat) m := by
    induction back generalizing m with
    | nil => exact Nat.le_refl m
    | cons c back ih =>
      have hstep : m ≤ 256 * m + c.toNat := by omega
      exact Nat.le_trans hstep (ih _)
  exact Nat.le_trans (Nat.le_add_left _ _) (hmono _)

theorem ofBigEndian_four (a b c d : UInt8) :
    ofBigEndian [a, b, c, d] =
      16777216 * a.toNat + 65536 * b.toNat + 256 * c.toNat + d.toNat := by
  simp only [ofBigEndian, List.foldl_cons, List.foldl_nil]
  omega

end Cbor

/-! ## Streams -/

/-- The header of a frame and the length that it announces. -/
inductive Header : Framing → List UInt8 → Nat → Prop
  | plain {a b c d : UInt8} : a ≠ Framing.marker →
    Header .plain [a, b, c, d] (Cbor.ofBigEndian [a, b, c, d])
  | marked (a b c d : UInt8) :
    Header .marked [Framing.marker, a, b, c, d] (Cbor.ofBigEndian [a, b, c, d])

/-- The contents of the complete frames of a stream, none of which is too long, and the rest. -/
inductive Splits (limit : Nat) : List UInt8 → List (List UInt8) → List UInt8 → Prop
  | cutHeader {f : Framing} {bytes more : List UInt8} {length : Nat} :
    Header f (bytes ++ more) length → more ≠ [] → Splits limit bytes [] bytes
  | cutContent {f : Framing} {header part : List UInt8} {length : Nat} :
    Header f header length → length ≤ limit → part.length < length →
      Splits limit (header ++ part) [] (header ++ part)
  | frame {f : Framing} {header content more rest : List UInt8} {contents : List (List UInt8)} :
    Header f header content.length → content.length ≤ limit → Splits limit more contents rest →
      Splits limit (header ++ (content ++ more)) (content :: contents) rest

namespace Header

variable {f : Framing} {header bytes behind : List UInt8} {length limit : Nat}

theorem length_eq (h : Header f header length) : header.length = f.headerLength := by
  cases h <;> rfl

theorem length_pos (h : Header f header length) : 0 < header.length := by
  cases h <;> exact Nat.succ_pos _

theorem length_le (h : Header f header length) : header.length ≤ 5 := by
  cases h <;> simp

/-- The first byte decides how long a header is. -/
theorem swap {left more late : List UInt8} (h : Header f (left ++ more) length) (hleft : left ≠ [])
    (hlate : late.length = more.length) :
    Header f (left ++ late) (Cbor.ofBigEndian ((left ++ late).drop (f.headerLength - 4))) := by
  obtain ⟨first, tail, rfl⟩ := List.exists_cons_of_ne_nil hleft
  have hlength : (tail ++ late).length = (tail ++ more).length := by
    rw [List.length_append, List.length_append, hlate]
  rw [List.cons_append] at h ⊢
  generalize tail ++ more = old at h hlength
  generalize tail ++ late = new at hlength ⊢
  cases h with
  | plain ha =>
    match new, hlength with
    | [b, c, d], _ => exact .plain ha
  | marked =>
    match new, hlength with
    | [a, b, c, d], _ => exact .marked a b c d

theorem ofFirst {first : UInt8} (h : Header f (first :: bytes) length) :
    Framing.ofFirst first = f := by
  cases h with
  | plain ha => exact if_neg ha
  | marked a b c d => rfl

theorem announced (h : Header f header length) :
    Deframer.announced f (header ++ behind) = length := by
  cases h <;> rfl

/-- A stream starts with a header, or with the front of one. -/
theorem cut_or_complete (bytes : List UInt8) :
    (∃ f more length, Header f (bytes ++ more) length ∧ more ≠ []) ∨
      ∃ f header length behind, Header f header length ∧ bytes = header ++ behind := by
  have hmarked : Header .marked [Framing.marker, 0, 0, 0, 0] 0 := .marked 0 0 0 0
  match bytes with
  | [] => exact Or.inl ⟨_, _, _, hmarked, nofun⟩
  | first :: tail =>
    by_cases hfirst : first = Framing.marker
    · subst hfirst
      match tail with
      | [] => exact Or.inl ⟨_, [0, 0, 0, 0], _, .marked 0 0 0 0, nofun⟩
      | [a] => exact Or.inl ⟨_, [0, 0, 0], _, .marked a 0 0 0, nofun⟩
      | [a, b] => exact Or.inl ⟨_, [0, 0], _, .marked a b 0 0, nofun⟩
      | [a, b, c] => exact Or.inl ⟨_, [0], _, .marked a b c 0, nofun⟩
      | a :: b :: c :: d :: behind => exact Or.inr ⟨_, _, _, behind, .marked a b c d, rfl⟩
    · match tail with
      | [] => exact Or.inl ⟨_, [0, 0, 0], _, .plain hfirst, nofun⟩
      | [b] => exact Or.inl ⟨_, [0, 0], _, .plain hfirst, nofun⟩
      | [b, c] => exact Or.inl ⟨_, [0], _, .plain hfirst, nofun⟩
      | b :: c :: d :: behind => exact Or.inr ⟨_, _, _, behind, .plain hfirst, rfl⟩

end Header

/-! ## A look at the front -/

namespace Deframer

variable {f : Framing} {header bytes more part content : List UInt8} {length limit : Nat}

theorem next_cutHeader (h : Header f (bytes ++ more) length) (hmore : more ≠ []) :
    Deframer.next ⟨bytes, limit⟩ = (.pending, ⟨bytes, limit⟩) := by
  cases bytes with
  | nil => rfl
  | cons first tail =>
    have hshort : (first :: tail).length < f.headerLength := by
      have := List.length_pos_iff.mpr hmore
      rw [← h.length_eq, List.length_append]
      omega
    unfold Deframer.next
    simp only [Header.ofFirst h, hshort, if_true]

/-- Behind a whole header the length decides. -/
theorem next_header (h : Header f header length) (limit : Nat) (behind : List UInt8) :
    Deframer.next ⟨header ++ behind, limit⟩ =
      if limit < length then (.oversized length limit, ⟨[], limit⟩)
      else if behind.length < length then (.pending, ⟨header ++ behind, limit⟩)
      else (.frame f (behind.take length), ⟨behind.drop length, limit⟩) := by
  have hlength := h.length_eq
  have hannounced : Deframer.announced f (header ++ behind) = length := h.announced
  cases header with
  | nil => cases h
  | cons first tail =>
    unfold Deframer.next
    simp only [List.cons_append, Header.ofFirst h] at hannounced ⊢
    rw [hannounced, ← List.cons_append, List.length_append, hlength, if_neg (by omega)]
    simp only [← hlength, Nat.add_lt_add_iff_left, List.drop_left, List.drop_length_add_append]

theorem next_cutContent (h : Header f header length) (hlimit : length ≤ limit)
    (hpart : part.length < length) :
    Deframer.next ⟨header ++ part, limit⟩ = (.pending, ⟨header ++ part, limit⟩) := by
  rw [next_header h, if_neg (Nat.not_lt.mpr hlimit), if_pos hpart]

theorem next_frame (h : Header f header content.length) (hlimit : content.length ≤ limit) :
    Deframer.next ⟨header ++ (content ++ more), limit⟩ = (.frame f content, ⟨more, limit⟩) := by
  have hwhole : ¬(content ++ more).length < content.length := by simp
  rw [next_header h, if_neg (Nat.not_lt.mpr hlimit), if_neg hwhole, List.take_left, List.drop_left]

end Deframer

namespace Splits

variable {limit : Nat} {bytes rest : List UInt8} {contents : List (List UInt8)}

theorem pending (h : Splits limit bytes [] bytes) :
    Deframer.next ⟨bytes, limit⟩ = (.pending, ⟨bytes, limit⟩) := by
  cases h with
  | cutHeader hheader hmore => exact Deframer.next_cutHeader hheader hmore
  | cutContent hheader hlimit hpart => exact Deframer.next_cutContent hheader hlimit hpart

/-- A stream without a complete frame is all rest. -/
theorem eq_of_alone (halone : Splits limit bytes [] bytes) (h : Splits limit bytes contents rest) :
    contents = [] ∧ rest = bytes := by
  cases h with
  | cutHeader => exact ⟨rfl, rfl⟩
  | cutContent => exact ⟨rfl, rfl⟩
  | frame hheader hlimit hmore =>
    have hpending := halone.pending
    rw [Deframer.next_frame hheader hlimit] at hpending
    cases hpending

/-- The rest of a stream is a stream without a complete frame. -/
theorem rest_alone (h : Splits limit bytes contents rest) : Splits limit rest [] rest := by
  induction h with
  | cutHeader hheader hmore => exact .cutHeader hheader hmore
  | cutContent hheader hlimit hpart => exact .cutContent hheader hlimit hpart
  | frame _ _ _ ih => exact ih

theorem nil (limit : Nat) : Splits limit [] [] [] := by
  have hheader : Header .marked ([] ++ [Framing.marker, 0, 0, 0, 0]) _ := .marked 0 0 0 0
  exact .cutHeader hheader nofun

/-- The front of a frame waits for the rest of it. -/
theorem front_alone {f : Framing} {header behind front back : List UInt8} {length : Nat}
    (hheader : Header f header length) (hlimit : length ≤ limit)
    (hbytes : front ++ back = header ++ behind)
    (hshort : front.length < header.length + length) : Splits limit front [] front := by
  rcases List.append_eq_append_iff.mp hbytes with ⟨mid, rfl, -⟩ | ⟨mid, rfl, -⟩
  · cases mid with
    | nil =>
      rw [List.append_nil] at hheader hshort
      have hpart : ([] : List UInt8).length < length := by
        rw [List.length_nil]
        omega
      simpa using Splits.cutContent hheader hlimit hpart
    | cons byte mid => exact .cutHeader hheader nofun
  · rw [List.length_append, Nat.add_lt_add_iff_left] at hshort
    exact .cutContent hheader hlimit hshort

/-- Wherever a stream is cut, the first piece has some of the frames, and the others are in what it
leaves behind and the second piece. -/
theorem cut {front back : List UInt8} (h : Splits limit (front ++ back) contents rest) :
    ∃ early left late, Splits limit front early left ∧ Splits limit (left ++ back) late rest ∧
      contents = early ++ late := by
  generalize hbytes : front ++ back = bytes at h
  induction h generalizing front with
  | cutHeader hheader hmore =>
    subst hbytes
    have hfront : Splits limit front [] front := by
      rw [List.append_assoc] at hheader
      exact .cutHeader hheader (by simp [hmore])
    exact ⟨[], front, [], hfront, .cutHeader hheader hmore, rfl⟩
  | @cutContent f header part length hheader hlimit hpart =>
    have hshort : front.length < header.length + length := by
      have := congrArg List.length hbytes
      simp only [List.length_append] at this
      omega
    refine ⟨[], front, [], front_alone hheader hlimit hbytes hshort, ?_, rfl⟩
    rw [hbytes]
    exact .cutContent hheader hlimit hpart
  | @frame f header content more rest contents hheader hlimit hmore ih =>
    by_cases hshort : front.length < header.length + content.length
    · refine ⟨[], front, content :: contents, front_alone hheader hlimit hbytes hshort, ?_, rfl⟩
      rw [hbytes]
      exact .frame hheader hlimit hmore
    · rw [← List.append_assoc] at hbytes
      obtain ⟨mid, hmid, hback⟩ : ∃ mid, front = header ++ content ++ mid ∧ mid ++ back = more := by
        rcases List.append_eq_append_iff.mp hbytes with ⟨mid, hmid, hback⟩ | ⟨mid, hmid, hback⟩
        · have hlength := congrArg List.length hmid
          simp only [List.length_append] at hlength
          obtain rfl : mid = [] := List.eq_nil_of_length_eq_zero (by omega)
          exact ⟨[], by simpa using hmid.symm, hback⟩
        · exact ⟨mid, hmid, hback.symm⟩
      obtain ⟨early, left, late, hearly, hlate, hcontents⟩ := ih hback
      refine ⟨content :: early, left, late, ?_, hlate, by rw [hcontents]; rfl⟩
      rw [hmid, List.append_assoc]
      exact .frame hheader hlimit hearly

end Splits

/-! ## What the client takes -/

namespace Client

variable {limit fuel : Nat} {bytes rest left : List UInt8} {contents : List (List UInt8)}

theorem takeMessages_pending {d : Deframer} (h : d.next = (.pending, d)) :
    takeMessages fuel d = ([], d) := by
  cases fuel with
  | zero => rfl
  | succ fuel => simp [takeMessages, Deframer.nextMessage, h]

theorem takeMessages_oversized {d e : Deframer} {length : Nat}
    (h : d.next = (.oversized length limit, e)) : takeMessages (fuel + 1) d = ([], e) := by
  simp [takeMessages, Deframer.nextMessage, h]

theorem takeMessages_frame {d e : Deframer} {f : Framing} {content : List UInt8}
    (h : d.next = (.frame f content, e)) :
    takeMessages (fuel + 1) d =
      ((Message.decode? content).toList ++ (takeMessages fuel e).1, (takeMessages fuel e).2) := by
  cases hdecode : Message.decode? content <;>
    simp [takeMessages, Deframer.nextMessage, h, hdecode]

theorem takeMessages_of_splits (h : Splits limit bytes contents rest)
    (hfuel : bytes.length < fuel) :
    takeMessages fuel ⟨bytes, limit⟩ = (contents.filterMap Message.decode?, ⟨rest, limit⟩) := by
  induction h generalizing fuel with
  | cutHeader hheader hmore =>
    exact takeMessages_pending (Deframer.next_cutHeader hheader hmore)
  | cutContent hheader hlimit hpart =>
    exact takeMessages_pending (Deframer.next_cutContent hheader hlimit hpart)
  | @frame f header content more rest contents hheader hlimit hmore ih =>
    cases fuel with
    | zero => exact absurd hfuel (Nat.not_lt_zero _)
    | succ fuel =>
      have hless : more.length < fuel := by
        have := hheader.length_pos
        simp only [List.length_append] at hfuel
        omega
      rw [takeMessages_frame (Deframer.next_frame hheader hlimit), ih hless, List.filterMap_cons]
      cases Message.decode? content <;> rfl

/-- The client takes the frames of a stream. -/
theorem takeIn_of_splits (h : Splits limit (left ++ bytes) contents rest) :
    takeIn ⟨left, limit⟩ bytes = (contents.filterMap Message.decode?, ⟨rest, limit⟩) :=
  takeMessages_of_splits h (Nat.lt_succ_self _)

/-- What is left of any bytes waits for more of them. -/
theorem takeMessages_alone (bytes : List UInt8) (hfuel : bytes.length < fuel) :
    ∃ rest, (takeMessages fuel ⟨bytes, limit⟩).2 = ⟨rest, limit⟩ ∧ Splits limit rest [] rest := by
  induction fuel generalizing bytes with
  | zero => exact absurd hfuel (Nat.not_lt_zero _)
  | succ fuel ih =>
    rcases Header.cut_or_complete bytes with
      ⟨f, more, length, hheader, hmore⟩ | ⟨f, header, length, behind, hheader, rfl⟩
    · rw [takeMessages_pending (Deframer.next_cutHeader hheader hmore)]
      exact ⟨bytes, rfl, .cutHeader hheader hmore⟩
    · have hnext := Deframer.next_header hheader limit behind
      split at hnext
      · rw [takeMessages_oversized hnext]
        exact ⟨[], rfl, .nil limit⟩
      · rename_i hlimit
        split at hnext
        · rename_i hpart
          rw [takeMessages_pending hnext]
          exact ⟨_, rfl, .cutContent hheader (Nat.not_lt.mp hlimit) hpart⟩
        · rw [takeMessages_frame hnext]
          apply ih
          have := hheader.length_pos
          simp only [List.length_append, List.length_drop] at hfuel ⊢
          omega

theorem takeIn_alone (d : Deframer) (bytes : List UInt8) :
    ∃ rest, (takeIn d bytes).2 = ⟨rest, d.limit⟩ ∧ Splits d.limit rest [] rest :=
  takeMessages_alone _ (Nat.lt_succ_self _)

end Client

/-! ## Streams taken for what they are -/

/-- Whatever stream comes in, the messages in its frames are taken. -/
def Deframer.Faithful (d : Deframer) : Prop :=
  ∀ bytes contents rest, Splits d.limit bytes contents rest →
    (Client.takeIn d bytes).1 = contents.filterMap Message.decode?

namespace Deframer

variable {f : Framing} {header behind left more : List UInt8} {length limit fuel : Nat}

theorem faithful_empty (limit : Nat) : Faithful ⟨[], limit⟩ := by
  intro bytes contents rest h
  have htaken : Client.takeIn ⟨[], limit⟩ bytes = _ := Client.takeIn_of_splits h
  rw [htaken]

/-- A header that announces more than there is keeps everything back. -/
theorem nothing_taken (h : Header f header length) (behind : List UInt8)
    (hshort : behind.length < length) :
    (Client.takeMessages fuel ⟨header ++ behind, limit⟩).1 = [] := by
  have hnext := next_header h limit behind
  split at hnext
  · cases fuel with
    | zero => rfl
    | succ fuel => rw [Client.takeMessages_oversized hnext]
  · rw [Client.takeMessages_pending hnext]

/-- A marker that is taken for a byte of a length makes the length more than a hundred. -/
theorem nothing_taken_of_cutHeader (h : Header f (left ++ more) length) (hleft : left ≠ [])
    (hmore : more ≠ []) (bytes : List UInt8) (hlong : 3 ≤ bytes.length)
    (hfew : bytes.length < 100) :
    (Client.takeIn ⟨left, limit⟩ (Framing.marker :: bytes)).1 = [] := by
  have hfour : more.length ≤ bytes.length + 1 := by
    have hheader := h.length_le
    have hone := List.length_pos_iff.mpr hleft
    rw [List.length_append] at hheader
    omega
  obtain ⟨late, behind, hbytes, hlate⟩ : ∃ late behind, Framing.marker :: bytes = late ++ behind ∧
      late.length = more.length := by
    refine ⟨_, _, (List.take_append_drop more.length _).symm, ?_⟩
    rw [List.length_take, List.length_cons, Nat.min_eq_left hfour]
  have hheader := h.swap hleft hlate
  have hannounced : 167 ≤ Cbor.ofBigEndian ((left ++ late).drop (f.headerLength - 4)) := by
    cases late with
    | nil => exact absurd (List.eq_nil_of_length_eq_zero hlate.symm) hmore
    | cons first late =>
      obtain rfl : Framing.marker = first := (List.cons.inj hbytes).1
      have hfront : f.headerLength - 4 ≤ left.length := by
        have hone := List.length_pos_iff.mpr hleft
        cases f with
        | plain => exact Nat.zero_le _
        | marked => exact hone
      rw [List.drop_append_of_le_length hfront]
      exact Cbor.le_ofBigEndian _ Framing.marker late
  have hshort : behind.length < 101 := by
    have := congrArg List.length hbytes
    rw [List.length_cons, List.length_append] at this
    omega
  rw [Client.takeIn, feed, hbytes, ← List.append_assoc]
  exact nothing_taken hheader behind (by omega)

/-- Empty frames, and a frame with some content of fifteen bytes behind them. -/
def padded (count : Nat) (content : List UInt8) : List UInt8 :=
  List.replicate (4 * count) 0 ++ ([0, 0, 0, 15] ++ content)

theorem splits_padded {content : List UInt8} (hcontent : content.length = 15) (hlimit : 15 ≤ limit)
    (count : Nat) :
    Splits limit (padded count content) (List.replicate count [] ++ [content]) [] := by
  induction count with
  | zero =>
    have hheader : Header .plain [0, 0, 0, 15] content.length := hcontent ▸ .plain (by decide)
    have h := Splits.frame hheader (hcontent ▸ hlimit) (.nil limit)
    rwa [List.append_nil] at h
  | succ count ih =>
    have hheader : Header .plain [0, 0, 0, 0] ([] : List UInt8).length := .plain (by decide)
    exact .frame hheader (Nat.zero_le limit) ih

/-- Behind a part of its header nothing can be taken of a frame. -/
theorem nothing_taken_of_shift {k : Nat} (hk : 0 < k) (hfour : k ≤ 4) {a b c d : UInt8}
    {tail : List UInt8} (ha : a ≠ Framing.marker) (hpos : 0 < a.toNat) (htail : tail.length = 11) :
    (Client.takeMessages fuel
      ⟨[0, 0, 0, 15].drop k ++ a :: b :: c :: d :: tail, limit⟩).1 = [] := by
  match k with
  | 1 =>
    have hheader : Header .plain [0, 0, 15, a] _ := .plain (by decide)
    exact nothing_taken hheader (b :: c :: d :: tail)
      (by simp [Cbor.ofBigEndian_four, htail]; omega)
  | 2 =>
    have hheader : Header .plain [0, 15, a, b] _ := .plain (by decide)
    exact nothing_taken hheader (c :: d :: tail) (by simp [Cbor.ofBigEndian_four, htail]; omega)
  | 3 =>
    have hheader : Header .plain [15, a, b, c] _ := .plain (by decide)
    exact nothing_taken hheader (d :: tail) (by simp [Cbor.ofBigEndian_four, htail]; omega)
  | 4 =>
    have hheader : Header .plain [a, b, c, d] _ := .plain ha
    exact nothing_taken hheader tail (by simp [Cbor.ofBigEndian_four, htail]; omega)

/-- A frame that was begun swallows the front of what comes in, and of the frame behind it nothing
is taken. What is taken does not depend on the content of that frame. -/
theorem taken_padded (h : Header f header length) (hlimit : length ≤ limit) {part : List UInt8}
    (hpart : part.length < length) :
    ∃ count swallowed, ∀ (a b c d : UInt8) (tail : List UInt8), a ≠ Framing.marker → 0 < a.toNat →
      tail.length = 11 →
        (Client.takeIn ⟨header ++ part, limit⟩ (padded count (a :: b :: c :: d :: tail))).1 =
          (Message.decode? swallowed).toList := by
  obtain ⟨count, k, hk, hfour, hlength⟩ :
      ∃ count k, 0 < k ∧ k ≤ 4 ∧ part.length + (4 * count + k) = length :=
    ⟨(length - part.length - 1) / 4, (length - part.length - 1) % 4 + 1, by omega, by omega,
      by omega⟩
  generalize hswallowed :
    part ++ (List.replicate (4 * count) 0 ++ ([0, 0, 0, 15] : List UInt8).take k) = swallowed
  refine ⟨count, swallowed, fun a b c d tail ha hpos htail => ?_⟩
  have hlong : swallowed.length = length := by
    rw [← hswallowed, ← hlength]
    simp [Nat.min_eq_left hfour]
  have hheader : Header f header swallowed.length := by rwa [hlong]
  have hbytes : header ++ part ++ padded count (a :: b :: c :: d :: tail) =
      header ++ (swallowed ++ ([0, 0, 0, 15].drop k ++ a :: b :: c :: d :: tail)) := by
    rw [← hswallowed, padded]
    simp only [List.append_assoc]
    rw [← List.append_assoc (List.take k _), List.take_append_drop]
  have hnext : Deframer.next ⟨header ++ part ++ padded count (a :: b :: c :: d :: tail), limit⟩ =
      (.frame f swallowed, ⟨[0, 0, 0, 15].drop k ++ a :: b :: c :: d :: tail, limit⟩) := by
    rw [hbytes]
    exact next_frame hheader (hlong ▸ hlimit)
  rw [Client.takeIn, feed, Client.takeMessages_frame hnext,
    nothing_taken_of_shift hk hfour ha hpos htail, List.append_nil]

theorem padded_messages {content : List UInt8} (count : Nat) :
    (List.replicate count [] ++ [content]).filterMap Message.decode? =
      (Message.decode? content).toList := by
  have hempty : Message.decode? [] = none := rfl
  rw [List.filterMap_append, List.filterMap_replicate_of_none hempty, List.nil_append,
    List.filterMap_cons]
  cases Message.decode? content <;> rfl

theorem encode_syncCompleted :
    ∃ a b c d tail, Message.syncCompleted.encode = a :: b :: c :: d :: tail ∧
      a ≠ Framing.marker ∧ 0 < a.toNat ∧ tail.length = 11 :=
  ⟨110, 115, 121, 110, [99, 95, 99, 111, 109, 112, 108, 101, 116, 101, 100], by decide +kernel,
    by decide, by decide, rfl⟩

theorem decode?_syncCompleted :
    Message.decode? Message.syncCompleted.encode = some .syncCompleted := by
  decide +kernel

/-- As soon as the limit lets a short message through, a stream is taken for what it is exactly if
it does not meet anything in the buffer. -/
theorem faithful_iff {limit : Nat} (hlimit : Message.syncCompleted.encode.length ≤ limit)
    (halone : Splits limit left [] left) : Faithful ⟨left, limit⟩ ↔ left = [] := by
  constructor
  · intro hfaithful
    refine Decidable.byContradiction fun hleft => ?_
    obtain ⟨a, b, c, d, tail, hencode, ha, hpos, htail⟩ := encode_syncCompleted
    have hdecode := decode?_syncCompleted
    rw [hencode] at hlimit hdecode
    have hlength : (a :: b :: c :: d :: tail).length = 15 := congrArg (· + 4) htail
    rw [hlength] at hlimit
    generalize hrest : left = rest at halone
    cases halone with
    | cutHeader hheader hmore =>
      -- A marked frame is lost.
      subst hrest
      have hmarked : Header .marked [0xA7, 0, 0, 0, 15] (a :: b :: c :: d :: tail).length :=
        hlength ▸ .marked 0 0 0 15
      have hlost : (Client.takeIn ⟨left, limit⟩ _).1 = [] :=
        nothing_taken_of_cutHeader hheader hleft hmore
          (0 :: 0 :: 0 :: 15 :: a :: b :: c :: d :: tail) (by simp) (by simp [htail])
      have htaken := hfaithful _ _ _ (.frame hmarked (hlength ▸ hlimit) (.nil limit))
      rw [List.append_nil, List.filterMap_cons, hdecode] at htaken
      exact List.cons_ne_nil _ _ (htaken.symm.trans hlost)
    | cutContent hheader hshort hpart =>
      -- The same is taken of two frames that say different things.
      subst hrest
      obtain ⟨count, swallowed, htaken⟩ := taken_padded hheader hshort hpart
      have hgood := hfaithful _ _ _ (splits_padded hlength hlimit count)
      rw [padded_messages, hdecode, htaken a b c d tail ha hpos htail] at hgood
      have hstop : (List.replicate 15 255 : List UInt8).length = 15 := rfl
      have hnone : Message.decode? (List.replicate 15 255) = none := rfl
      have hbad := hfaithful _ _ _ (splits_padded hstop hlimit count)
      have hlost := htaken 255 255 255 255 (List.replicate 11 255) (by decide) (by decide) rfl
      rw [padded_messages, hnone] at hbad
      exact absurd (hgood.symm.trans (hlost.symm.trans hbad)) nofun
  · rintro rfl
    exact faithful_empty limit

/-- A header without its content swallows the frame behind it. -/
example :
    (Client.takeIn ⟨[0xA7, 0, 0, 0, 16], 1000⟩ (Message.syncCompleted.framed .marked)).1 = [] := by
  decide +kernel

end Deframer

end ValueTree
