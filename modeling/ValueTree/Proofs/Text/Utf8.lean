import ValueTree.Text.Utf8

/-!
# Texts as bytes and back

What is written is read again, and nothing is read but what would be written: a text has one form.
Texts come in the order of their bytes.
-/

namespace ValueTree.Utf8

/-! ## Bytes -/

theorem toNat_byte {n : Nat} (h : n < 256) : n.toUInt8.toNat = n := by
  simp [Nat.mod_eq_of_lt h]

theorem toNat_tailByte (n : Nat) : (tailByte n).toNat = 0x80 + n % 0x40 :=
  toNat_byte (by omega)

theorem isTail_iff {b : UInt8} : isTail b = true ↔ 0x80 ≤ b.toNat ∧ b.toNat < 0xC0 := by
  simp [isTail, UInt8.le_iff_toNat_le, UInt8.lt_iff_toNat_lt]

@[simp]
theorem isTail_tailByte (n : Nat) : isTail (tailByte n) = true := by
  rw [isTail_iff, toNat_tailByte]
  omega

@[simp]
theorem tailBits_tailByte (n : Nat) : tailBits (tailByte n) = n % 0x40 := by
  have := toNat_tailByte n
  unfold tailBits
  omega

theorem tailBits_lt {b : UInt8} (h : isTail b = true) : tailBits b < 0x40 := by
  rw [isTail_iff] at h
  unfold tailBits
  omega

theorem tailByte_eq {b : UInt8} (h : isTail b = true) {n : Nat} (hn : n % 0x40 = tailBits b) :
    tailByte n = b := by
  rw [isTail_iff] at h
  unfold tailBits at hn
  apply UInt8.toNat_inj.mp
  rw [toNat_tailByte]
  omega

/-! ## Characters -/

theorem toNat_ofNat {n : Nat} (h : n.isValidChar) : (Char.ofNat n).toNat = n := by
  unfold Char.ofNat
  rw [dif_pos h]
  rfl

theorem scalar?_eq_some {n : Nat} {c : Char} : scalar? n = some c ↔ c.toNat = n := by
  unfold scalar?
  constructor
  · intro h
    split at h
    · cases h
      exact toNat_ofNat ‹_›
    · simp at h
  · rintro rfl
    rw [if_pos (show c.toNat.isValidChar from c.valid), Char.ofNat_toNat]

theorem toNat_lt (c : Char) : c.toNat < 0x110000 := by
  rcases c.valid with h | h
  · exact Nat.lt_trans h (by decide)
  · exact h.2

theorem consChar_eq_some {c? : Option Char} {cs? : Option (List Char)} {cs : List Char} :
    consChar c? cs? = some cs ↔ ∃ c rest, c? = some c ∧ cs? = some rest ∧ cs = c :: rest := by
  cases c? <;> cases cs? <;> simp [consChar, eq_comm]

/-! ## Steps of reading -/

variable {a b c d : UInt8} {rest : List UInt8}

theorem decode_one (h : a.toNat < 0x80) :
    decode (a :: rest) = consChar (scalar? a.toNat) (decode rest) := by
  rw [decode.eq_def]
  simp [UInt8.lt_iff_toNat_lt, h]

theorem decode_two (h : 0xC2 ≤ a.toNat) (h' : a.toNat < 0xE0) :
    decode (a :: b :: rest) = consChar (two? a b) (decode rest) := by
  rw [decode.eq_def]
  simp [UInt8.lt_iff_toNat_lt, show ¬a.toNat < 128 by omega, show ¬a.toNat < 194 by omega, h']

theorem decode_three (h : 0xE0 ≤ a.toNat) (h' : a.toNat < 0xF0) :
    decode (a :: b :: c :: rest) = consChar (three? a b c) (decode rest) := by
  rw [decode.eq_def]
  simp [UInt8.lt_iff_toNat_lt, show ¬a.toNat < 128 by omega, show ¬a.toNat < 194 by omega,
    show ¬a.toNat < 224 by omega, h']

theorem decode_four (h : 0xF0 ≤ a.toNat) (h' : a.toNat < 0xF5) :
    decode (a :: b :: c :: d :: rest) = consChar (four? a b c d) (decode rest) := by
  rw [decode.eq_def]
  simp [UInt8.lt_iff_toNat_lt, show ¬a.toNat < 128 by omega, show ¬a.toNat < 194 by omega,
    show ¬a.toNat < 224 by omega, show ¬a.toNat < 240 by omega, h']

/-! ## Reading what was written -/

/-- The bytes of a character come out as this very character. -/
theorem decode_encodeChar (x : Char) (rest : List UInt8) :
    decode (encodeChar x ++ rest) = consChar (some x) (decode rest) := by
  have hlt := toNat_lt x
  have hscalar : scalar? x.toNat = some x := scalar?_eq_some.mpr rfl
  unfold encodeChar
  dsimp only
  generalize x.toNat = n at *
  split
  · have hbyte : n.toUInt8.toNat = n := toNat_byte (by omega)
    rw [List.singleton_append, decode_one (by omega), hbyte, hscalar]
  split
  · have hbyte : (0xC0 + n / 0x40).toUInt8.toNat = 0xC0 + n / 0x40 := toNat_byte (by omega)
    have htwo : two? (0xC0 + n / 0x40).toUInt8 (tailByte n) = some x := by
      rw [two?, if_pos (isTail_tailByte n), hbyte, tailBits_tailByte, ← hscalar]
      congr 1
      omega
    rw [List.cons_append, List.singleton_append, decode_two (by omega) (by omega), htwo]
  split
  · have hbyte : (0xE0 + n / 0x1000).toUInt8.toNat = 0xE0 + n / 0x1000 := toNat_byte (by omega)
    have hsum : (0xE0 + n / 0x1000 - 0xE0) * 0x1000 + n / 0x40 % 0x40 * 0x40 + n % 0x40 = n := by
      omega
    have hthree : three? (0xE0 + n / 0x1000).toUInt8 (tailByte (n / 0x40)) (tailByte n) =
        some x := by
      have hlong : 0x800 ≤ n := by omega
      simp only [three?, isTail_tailByte, hbyte, tailBits_tailByte, hsum, hlong, decide_true,
        Bool.and_self, if_true, hscalar]
    rw [List.cons_append, List.cons_append, List.singleton_append,
      decode_three (by omega) (by omega), hthree]
  · have hbyte : (0xF0 + n / 0x40000).toUInt8.toNat = 0xF0 + n / 0x40000 := toNat_byte (by omega)
    have hsum : (0xF0 + n / 0x40000 - 0xF0) * 0x40000 + n / 0x1000 % 0x40 * 0x1000 +
        n / 0x40 % 0x40 * 0x40 + n % 0x40 = n := by omega
    have hfour : four? (0xF0 + n / 0x40000).toUInt8 (tailByte (n / 0x1000)) (tailByte (n / 0x40))
        (tailByte n) = some x := by
      have hlong : 0x10000 ≤ n := by omega
      simp only [four?, isTail_tailByte, hbyte, tailBits_tailByte, hsum, hlong, decide_true,
        Bool.and_self, if_true, hscalar]
    rw [List.cons_append, List.cons_append, List.cons_append, List.singleton_append,
      decode_four (by omega) (by omega), hfour]

theorem decode_encode (cs : List Char) : decode (encode cs) = some cs := by
  induction cs with
  | nil => rfl
  | cons x rest ih =>
    have hcons : encode (x :: rest) = encodeChar x ++ encode rest := List.flatMap_cons
    rw [hcons, decode_encodeChar, ih, consChar]

/-! ## Writing what was read -/

variable {x : Char}

theorem encodeChar_of_one (h : scalar? a.toNat = some x) (ha : a.toNat < 0x80) :
    encodeChar x = [a] := by
  have hx := scalar?_eq_some.mp h
  simp only [encodeChar, hx, if_pos ha, Nat.toUInt8_eq, UInt8.ofNat_toNat]

theorem encodeChar_of_two (h : two? a b = some x) (ha : 0xC2 ≤ a.toNat) (ha' : a.toNat < 0xE0) :
    encodeChar x = [a, b] := by
  unfold two? at h
  split at h
  · rename_i hb
    have hx := scalar?_eq_some.mp h
    have hbits := tailBits_lt hb
    have hfirst : (0xC0 + x.toNat / 0x40).toUInt8 = a := by
      apply UInt8.toNat_inj.mp
      rw [toNat_byte (by omega)]
      omega
    have hlast : tailByte x.toNat = b := tailByte_eq hb (by omega)
    simp only [encodeChar, hfirst, hlast]
    rw [if_neg (by omega), if_pos (by omega)]
  · simp at h

theorem encodeChar_of_three (h : three? a b c = some x) (ha : 0xE0 ≤ a.toNat)
    (ha' : a.toNat < 0xF0) : encodeChar x = [a, b, c] := by
  unfold three? at h
  dsimp only at h
  split at h
  · rename_i hall
    simp only [Bool.and_eq_true, decide_eq_true_eq] at hall
    obtain ⟨⟨hb, hc⟩, hlong⟩ := hall
    have hx := scalar?_eq_some.mp h
    have hbits := tailBits_lt hb
    have hbits' := tailBits_lt hc
    have hfirst : (0xE0 + x.toNat / 0x1000).toUInt8 = a := by
      apply UInt8.toNat_inj.mp
      rw [toNat_byte (by omega)]
      omega
    have hmiddle : tailByte (x.toNat / 0x40) = b := tailByte_eq hb (by omega)
    have hlast : tailByte x.toNat = c := tailByte_eq hc (by omega)
    simp only [encodeChar, hfirst, hmiddle, hlast]
    rw [if_neg (by omega), if_neg (by omega), if_pos (by omega)]
  · simp at h

theorem encodeChar_of_four (h : four? a b c d = some x) (ha : 0xF0 ≤ a.toNat)
    (ha' : a.toNat < 0xF5) : encodeChar x = [a, b, c, d] := by
  unfold four? at h
  dsimp only at h
  split at h
  · rename_i hall
    simp only [Bool.and_eq_true, decide_eq_true_eq] at hall
    obtain ⟨⟨⟨hb, hc⟩, hd⟩, hlong⟩ := hall
    have hx := scalar?_eq_some.mp h
    have hbits := tailBits_lt hb
    have hbits' := tailBits_lt hc
    have hbits'' := tailBits_lt hd
    have hfirst : (0xF0 + x.toNat / 0x40000).toUInt8 = a := by
      apply UInt8.toNat_inj.mp
      rw [toNat_byte (by omega)]
      omega
    have hsecond : tailByte (x.toNat / 0x1000) = b := tailByte_eq hb (by omega)
    have hthird : tailByte (x.toNat / 0x40) = c := tailByte_eq hc (by omega)
    have hlast : tailByte x.toNat = d := tailByte_eq hd (by omega)
    simp only [encodeChar, hfirst, hsecond, hthird, hlast]
    rw [if_neg (by omega), if_neg (by omega), if_neg (by omega)]
  · simp at h

/-- A text is read from no other bytes than those it is written as. -/
theorem encode_decode {bytes : List UInt8} {cs : List Char} (h : decode bytes = some cs) :
    encode cs = bytes := by
  have hcons {front rest : List UInt8} {x : Char} {xs : List Char} (hx : encodeChar x = front)
      (hxs : encode xs = rest) : encode (x :: xs) = front ++ rest := by
    rw [← hx, ← hxs]
    exact List.flatMap_cons
  fun_induction decode bytes generalizing cs with
  | case1 =>
    cases h
    rfl
  | case2 a rest ha ih =>
    obtain ⟨x, xs, hx, hxs, rfl⟩ := consChar_eq_some.mp h
    rw [UInt8.lt_iff_toNat_lt] at ha
    exact hcons (encodeChar_of_one hx ha) (ih hxs)
  | case4 a _ ha ha' b rest ih =>
    obtain ⟨x, xs, hx, hxs, rfl⟩ := consChar_eq_some.mp h
    rw [UInt8.lt_iff_toNat_lt] at ha ha'
    exact hcons (encodeChar_of_two hx (Nat.le_of_not_lt ha) ha') (ih hxs)
  | case6 a _ _ ha ha' b c rest ih =>
    obtain ⟨x, xs, hx, hxs, rfl⟩ := consChar_eq_some.mp h
    rw [UInt8.lt_iff_toNat_lt] at ha ha'
    exact hcons (encodeChar_of_three hx (Nat.le_of_not_lt ha) ha') (ih hxs)
  | case8 a _ _ _ ha ha' b c d rest ih =>
    obtain ⟨x, xs, hx, hxs, rfl⟩ := consChar_eq_some.mp h
    rw [UInt8.lt_iff_toNat_lt] at ha ha'
    exact hcons (encodeChar_of_four hx (Nat.le_of_not_lt ha) ha') (ih hxs)
  | case3 | case5 | case7 | case9 | case10 => simp at h

theorem encode_flatten {pieces : List (List UInt8)} {parts : List (List Char)}
    (h : pieces.mapM decode = some parts) : encode parts.flatten = pieces.flatten := by
  induction pieces generalizing parts with
  | nil =>
    cases h
    rfl
  | cons piece rest ih =>
    rw [List.mapM_cons] at h
    obtain ⟨cs, hpiece, h⟩ := Option.bind_eq_some_iff.mp h
    obtain ⟨more, hrest, h⟩ := Option.bind_eq_some_iff.mp h
    cases h
    rw [List.flatten_cons, List.flatten_cons, ← encode_decode hpiece, ← ih hrest]
    exact List.flatMap_append

/-! ## Order -/

/-- The first character that differs decides, whatever follows it. -/
theorem encodeChar_append_lt {x y : Char} (h : x < y) (front back : List UInt8) :
    encodeChar x ++ front < encodeChar y ++ back := by
  have hlt : x.toNat < y.toNat := h
  have hx := toNat_lt x
  have hy := toNat_lt y
  have hhigh (n : Nat) : n / 0x1000 = n / 0x40 / 0x40 := by omega
  have htop (n : Nat) : n / 0x40000 = n / 0x40 / 0x40 / 0x40 := by omega
  unfold encodeChar
  dsimp only
  generalize x.toNat = m at *
  generalize y.toNat = n at *
  -- A longer form has a greater first byte; forms of one length differ in one of their digits.
  repeat' split
  all_goals
    simp only [List.cons_append, List.nil_append, List.cons_lt_cons_iff, UInt8.lt_iff_toNat_lt,
      ← UInt8.toNat_inj, toNat_tailByte, Nat.toUInt8_eq, UInt8.toNat_ofNat', hhigh, htop]
    omega

theorem encode_lt_encode {cs ds : List Char} (h : cs < ds) : encode cs < encode ds := by
  have hcons (x : Char) (rest : List Char) : encode (x :: rest) = encodeChar x ++ encode rest :=
    List.flatMap_cons
  induction h with
  | @nil y rest =>
    rw [hcons]
    unfold encodeChar
    dsimp only
    repeat' split
    all_goals exact List.nil_lt_cons _ _
  | @cons x _ _ _ ih =>
    rw [hcons, hcons]
    exact List.append_left_lt ih
  | @rel _ _ _ _ hlt =>
    rw [hcons, hcons]
    exact encodeChar_append_lt hlt _ _

theorem ofString_lt_iff {s t : String} : ofString s < ofString t ↔ s < t := by
  refine ⟨fun h => ?_, fun h => encode_lt_encode (String.lt_iff.mp h)⟩
  rcases Std.lt_trichotomy s t with hlt | rfl | hgt
  · exact hlt
  · exact absurd h (List.lt_irrefl _)
  · exact absurd h (List.lt_asymm (encode_lt_encode (String.lt_iff.mp hgt)))

theorem ofString_inj {s t : String} : ofString s = ofString t ↔ s = t := by
  refine ⟨fun h => String.toList_inj.mp (Option.some.inj ?_), congrArg ofString⟩
  rw [← decode_encode s.toList, ← decode_encode t.toList]
  exact congrArg decode h

end ValueTree.Utf8
