import ValueTree.Proofs.Sync.Framing

/-!
# Frames that are too long

A stream is a row of frames, or one of its frames is too long to be taken. Behind the header of such
a frame nothing can be found: it takes along what came in with it, and the client goes on with what
comes in next as if it were another stream.
-/

namespace ValueTree

/-- The contents of the frames before one that is too long, and what stands behind its header. -/
inductive Spoils (limit : Nat) : List UInt8 → List (List UInt8) → List UInt8 → Prop
  | oversized {f : Framing} {header behind : List UInt8} {length : Nat} :
    Header f header length → limit < length → Spoils limit (header ++ behind) [] behind
  | frame {f : Framing} {header content more behind : List UInt8} {contents : List (List UInt8)} :
    Header f header content.length → content.length ≤ limit → Spoils limit more contents behind →
      Spoils limit (header ++ (content ++ more)) (content :: contents) behind

variable {limit : Nat} {bytes more rest left behind : List UInt8}
  {contents early late : List (List UInt8)}

theorem Deframer.next_oversized {f : Framing} {header : List UInt8} {length : Nat}
    (h : Header f header length) (hlimit : limit < length) :
    Deframer.next ⟨header ++ behind, limit⟩ = (.oversized length limit, ⟨[], limit⟩) := by
  rw [next_header h, if_pos hlimit]

/-- There is no third kind of stream. -/
theorem splits_or_spoils (limit : Nat) (bytes : List UInt8) :
    (∃ contents rest, Splits limit bytes contents rest) ∨
      ∃ contents behind, Spoils limit bytes contents behind := by
  induction hlength : bytes.length using Nat.strongRecOn generalizing bytes with
  | _ n ih =>
    rcases Header.cut_or_complete bytes with
      ⟨f, more, length, hheader, hmore⟩ | ⟨f, header, length, behind, hheader, rfl⟩
    · exact Or.inl ⟨_, _, .cutHeader hheader hmore⟩
    · by_cases hlimit : limit < length
      · exact Or.inr ⟨_, _, .oversized hheader hlimit⟩
      · by_cases hpart : behind.length < length
        · exact Or.inl ⟨_, _, .cutContent hheader (Nat.not_lt.mp hlimit) hpart⟩
        · -- A whole frame stands in front, and behind it a shorter stream.
          obtain ⟨content, more, rfl, rfl⟩ : ∃ content more, behind = content ++ more ∧
              length = content.length :=
            ⟨_, _, (List.take_append_drop length behind).symm, by
              rw [List.length_take, Nat.min_eq_left (Nat.not_lt.mp hpart)]⟩
          have hshorter : more.length < n := by
            have := hheader.length_pos
            simp only [List.length_append] at hlength
            omega
          refine (ih more.length hshorter more rfl).imp ?_ ?_
          · rintro ⟨contents, rest, hmore⟩
            exact ⟨_, _, .frame hheader (Nat.not_lt.mp hlimit) hmore⟩
          · rintro ⟨contents, rest, hmore⟩
            exact ⟨_, _, .frame hheader (Nat.not_lt.mp hlimit) hmore⟩

/-! ## Streams in pieces -/

namespace Splits

/-- What follows the rest of a stream follows the stream. -/
theorem append (h : Splits limit bytes early left) (h' : Splits limit (left ++ more) late rest) :
    Splits limit (bytes ++ more) (early ++ late) rest := by
  induction h with
  | cutHeader _ _ | cutContent _ _ _ => exact h'
  | frame hheader hlimit _ ih =>
    rw [List.append_assoc, List.append_assoc]
    exact .frame hheader hlimit (ih h')

theorem append_spoils (h : Splits limit bytes early left)
    (h' : Spoils limit (left ++ more) late behind) :
    Spoils limit (bytes ++ more) (early ++ late) behind := by
  induction h with
  | cutHeader _ _ | cutContent _ _ _ => exact h'
  | frame hheader hlimit _ ih =>
    rw [List.append_assoc, List.append_assoc]
    exact .frame hheader hlimit (ih h')

/-- What spoils the stream does so behind the frames that are complete. -/
theorem spoils (h : Splits limit bytes early left)
    (hspoils : Spoils limit (bytes ++ more) contents behind) :
    ∃ late, contents = early ++ late ∧ Spoils limit (left ++ more) late behind := by
  induction h generalizing contents with
  | cutHeader _ _ | cutContent _ _ _ => exact ⟨contents, rfl, hspoils⟩
  | @frame f header content back rest contents' hheader hlimit _ ih =>
    rw [List.append_assoc, List.append_assoc] at hspoils
    have hnext : Deframer.next ⟨header ++ (content ++ (back ++ more)), limit⟩ = _ :=
      Deframer.next_frame hheader hlimit
    -- One look at the front tells which frame stands there.
    generalize hwhole : header ++ (content ++ (back ++ more)) = whole at hspoils hnext
    cases hspoils with
    | oversized hother hlong =>
      rw [Deframer.next_oversized hother hlong] at hnext
      cases hnext
    | frame hother hshort hbehind =>
      rw [Deframer.next_frame hother hshort] at hnext
      cases hnext
      obtain ⟨late, rfl, hlate⟩ := ih hbehind
      exact ⟨late, rfl, hlate⟩

end Splits

/-! ## What the client takes -/

namespace Client

variable {fuel : Nat}

theorem takeMessages_of_spoils (h : Spoils limit bytes contents behind)
    (hfuel : bytes.length < fuel) :
    takeMessages fuel ⟨bytes, limit⟩ = (contents.filterMap Message.decode?, ⟨[], limit⟩) := by
  induction h generalizing fuel with
  | oversized hheader hlimit =>
    cases fuel with
    | zero => exact absurd hfuel (Nat.not_lt_zero _)
    | succ fuel => exact takeMessages_oversized (Deframer.next_oversized hheader hlimit)
  | @frame f header content more rest contents hheader hlimit hmore ih =>
    cases fuel with
    | zero => exact absurd hfuel (Nat.not_lt_zero _)
    | succ fuel =>
      have hless : more.length < fuel := by
        have := hheader.length_pos
        simp only [List.length_append] at hfuel
        omega
      rw [takeMessages_frame (Deframer.next_frame hheader hlimit), ih hless, List.filterMap_cons]
      cases Message.decode? content <;> rfl

/-- The client takes the frames up to the one that is too long, and drops what came in with it. -/
theorem takeIn_of_spoils (h : Spoils limit (left ++ bytes) contents behind) :
    takeIn ⟨left, limit⟩ bytes = (contents.filterMap Message.decode?, ⟨[], limit⟩) :=
  takeMessages_of_spoils h (Nat.lt_succ_self _)

/-- A header that announces too much, and a frame with it or after it. -/
example :
    let header : List UInt8 := [0xA7, 255, 255, 255, 255]
    let frame := Message.syncCompleted.framed .marked
    (takeIn { limit := 1000 } (header ++ frame)).1 = [] ∧
      (takeIn (takeIn { limit := 1000 } header).2 frame).1 = [.syncCompleted] := by
  decide +kernel

end Client

end ValueTree
