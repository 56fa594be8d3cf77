import ValueTree.Proofs.Session.Connections
import ValueTree.Proofs.Sync.Oversize

/-!
# Streams with a frame that is too long

Of such a stream a client handles the messages up to that frame, however the stream is cut into
pieces. The frame takes along the rest of the piece that completes its header, and no more: the next
piece is taken for the start of another stream, although it belongs to the same connection.
-/

namespace ValueTree

variable {κ : Type} {limit : Nat}

/-- A piece completes the header of the first frame that is too long. Before it stand frames with
these contents. -/
structure Spoiled (limit : Nat) (front piece : List UInt8) (contents : List (List UInt8)) :
    Prop where
  before : ∃ whole rest, Splits limit front whole rest
  piece : ∃ behind, Spoils limit (front ++ piece) contents behind

theorem completed_append (before after : List (Deed κ)) :
    completed (before ++ after) = completed before ++ completed after := List.flatMap_append ..

/-- Either no frame of a stream is too long, or some piece completes the header of the first one. -/
theorem splits_or_spoiled {left : List UInt8} (halone : Splits limit left [] left)
    (journal : List (Deed κ)) :
    (∃ contents rest, Splits limit (left ++ received journal) contents rest) ∨
      ∃ early bytes messages late contents, journal = early ++ .received bytes messages :: late ∧
        Spoiled limit (left ++ received early) bytes contents := by
  induction journal generalizing left with
  | nil => exact Or.inl ⟨[], left, by simpa [received] using halone⟩
  | cons deed journal ih =>
    cases deed with
    | received bytes messages =>
      rcases splits_or_spoils limit (left ++ bytes) with
        ⟨contents, rest, hwhole⟩ | ⟨contents, behind, hspoils⟩
      · have hbytes (later : List (Deed κ)) :
            left ++ received (.received bytes messages :: later) =
              left ++ bytes ++ received later := by
          simp [received, Deed.bytes]
        refine (ih hwhole.rest_alone).imp ?_ ?_
        · rintro ⟨later, rest', hlater⟩
          rw [hbytes]
          exact ⟨_, _, hwhole.append hlater⟩
        · rintro ⟨early, piece, said, late, later, rfl, ⟨between, rest', hbetween⟩, behind, hspoils⟩
          rw [List.append_assoc] at hspoils
          refine ⟨.received bytes messages :: early, piece, said, late, contents ++ later, rfl, ?_⟩
          rw [hbytes]
          refine ⟨⟨_, _, hwhole.append hbetween⟩, behind, ?_⟩
          rw [List.append_assoc]
          exact hwhole.append_spoils hspoils
      · have halone' : Splits limit (left ++ received ([] : List (Deed κ))) [] left := by
          simpa [received] using halone
        refine Or.inr ⟨[], bytes, messages, journal, contents, rfl, ⟨_, _, halone'⟩, behind, ?_⟩
        simpa [received] using hspoils
    | _ =>
      refine (ih halone).imp id ?_
      rintro ⟨early, piece, said, late, contents, rfl, hspoiled⟩
      exact ⟨_ :: early, piece, said, late, contents, rfl, hspoiled⟩

/-- However the stream is cut, what stands before a frame that is too long is taken, and nothing is
left behind. -/
theorem Taken.of_spoiled {left bytes : List UInt8} {early late : List (Deed κ)}
    {messages : List Message} {contents : List (List UInt8)}
    (h : Taken ⟨left, limit⟩ (early ++ .received bytes messages :: late))
    (halone : Splits limit left [] left)
    (hspoiled : Spoiled limit (left ++ received early) bytes contents) :
    completed early ++ messages = contents.filterMap Message.decode? ∧
      (early ++ [Deed.received bytes messages]).foldl Deed.feed ⟨left, limit⟩ = ⟨[], limit⟩ := by
  obtain ⟨⟨whole, rest, hwhole⟩, behind, hspoils⟩ := hspoiled
  obtain ⟨later, rfl, hlater⟩ := hwhole.spoils hspoils
  obtain ⟨hearly, hmessages, -⟩ := taken_append.mp h
  obtain ⟨hcompleted, hfeed⟩ := hearly.of_splits halone hwhole
  have htaken := Client.takeIn_of_spoils hlater
  rw [hfeed, htaken] at hmessages
  constructor
  · rw [hcompleted, hmessages, List.filterMap_append]
  · rw [List.foldl_append, hfeed]
    exact congrArg Prod.snd htaken

/-- A stretch of a journal up to a frame that is too long. -/
theorem Taken.spoiled {before early after : List (Deed κ)} {bytes : List UInt8}
    {messages : List Message} {contents : List (List UInt8)}
    (h : Taken { limit } (before ++ (early ++ .received bytes messages :: after)))
    (hspoiled : Spoiled limit (leftover limit before ++ received early) bytes contents) :
    completed early ++ messages = contents.filterMap Message.decode? ∧
      leftover limit (before ++ (early ++ [.received bytes messages])) = [] := by
  obtain ⟨left, hleft, halone⟩ := feed_alone (.nil limit) before
  have hthis := (taken_append.mp h).2
  rw [leftover, hleft] at hspoiled
  rw [hleft] at hthis
  obtain ⟨hmessages, hfeed⟩ := hthis.of_spoiled halone hspoiled
  rw [leftover, List.foldl_append, hleft, hfeed]
  exact ⟨hmessages, rfl⟩

/-! ## Whole runs -/

/-- What is true of the streams that come in, in every run. -/
structure StreamsKept (limit : Nat) (s : Session) : Prop where
  /-- The messages that bytes complete are handled there and then, one after the other. -/
  handled : Word [] s.journal
  /-- Whatever comes in behind the bytes that are left, no frame of it is too long or one is the
  first. -/
  either {before own after : List (Deed Completion)} : s.journal = before ++ (own ++ after) →
    (∃ contents rest, Splits limit (leftover limit before ++ received own) contents rest) ∨
      ∃ early bytes messages late contents, own = early ++ .received bytes messages :: late ∧
        Spoiled limit (leftover limit before ++ received early) bytes contents
  /-- If none is too long the messages are those in all the complete frames. -/
  whole {before own after : List (Deed Completion)} {contents : List (List UInt8)}
    {rest : List UInt8} :
    s.journal = before ++ (own ++ after) →
      Splits limit (leftover limit before ++ received own) contents rest →
        completed own = contents.filterMap Message.decode?
  /-- The first one that is too long ends the messages of the piece that completes its header, and
  nothing is left of this piece. What comes in next is read from its first byte on. -/
  spoiled {before early after : List (Deed Completion)} {bytes : List UInt8}
    {messages : List Message} {contents : List (List UInt8)} :
    s.journal = before ++ (early ++ .received bytes messages :: after) →
      Spoiled limit (leftover limit before ++ received early) bytes contents →
        completed early ++ messages = contents.filterMap Message.decode? ∧
          leftover limit (before ++ (early ++ [.received bytes messages])) = []
  /-- So the messages before that frame are all that are taken exactly if the pieces that come in
  later complete none. -/
  exactly {before early late after : List (Deed Completion)} {bytes : List UInt8}
    {messages : List Message} {contents : List (List UInt8)} :
    s.journal = before ++ (early ++ .received bytes messages :: (late ++ after)) →
      Spoiled limit (leftover limit before ++ received early) bytes contents →
        (completed (early ++ .received bytes messages :: late) =
          contents.filterMap Message.decode? ↔ completed late = [])

/-- In every run of a session with a client the messages up to a frame that is too long are taken
however the bytes come in, and behind it the bytes of the next piece are taken for frames again. -/
theorem Session.streamsKept (files : FileTree) (config : ClientConfig) (commands : List Command) :
    StreamsKept config.frameLimit (((fresh files).seatClient config).steps commands).2 := by
  have hkept := framesKept files config commands
  have h := (course_steps ((fresh files).seatClient config) commands).framed (.start files config)
  refine
    { handled := hkept.handled
      either := fun {before own after} _ => ?_
      whole := hkept.taken
      spoiled := fun hjournal => (hjournal ▸ h.taken).spoiled
      exactly := fun {before early late after bytes messages contents} hjournal hthis => ?_ }
  · obtain ⟨left, hleft, halone⟩ := feed_alone (.nil config.frameLimit) before
    rw [leftover, hleft]
    exact splits_or_spoiled halone own
  · have hfirst := Taken.spoiled (hjournal ▸ h.taken) hthis
    rw [completed_append, ← hfirst.1]
    have hlast : completed (Deed.received bytes messages :: late) = messages ++ completed late :=
      List.flatMap_cons ..
    rw [hlast, ← List.append_assoc, List.append_right_eq_self]

end ValueTree
