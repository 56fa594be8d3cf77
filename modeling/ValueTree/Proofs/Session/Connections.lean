import ValueTree.Proofs.Session.Orderly
import ValueTree.Proofs.Sync.Framing

/-!
# Connections

The journal tells which bytes came in on a connection and which messages they completed. These are
the messages in the frames of its bytes if no earlier connection has left anything in the buffer.
The loss of a connection does not empty the buffer: what it leaves is taken for the front of what
comes in next.
-/

namespace ValueTree

variable {κ : Type}

/-! ## What came in -/

def Deed.bytes : Deed κ → List UInt8
  | .received bytes _ => bytes
  | _ => []

def Deed.messages : Deed κ → List Message
  | .received _ messages => messages
  | _ => []

/-- The bytes that came in. -/
def received (journal : List (Deed κ)) : List UInt8 := journal.flatMap Deed.bytes

/-- The messages that were completed. -/
def completed (journal : List (Deed κ)) : List Message := journal.flatMap Deed.messages

/-- No connection comes up or is lost. -/
def Uninterrupted (journal : List (Deed κ)) : Prop := .up ∉ journal ∧ .down ∉ journal

def Deed.feed (d : Deframer) : Deed κ → Deframer
  | .received bytes _ => (Client.takeIn d bytes).2
  | _ => d

/-- What has come in and is not yet part of a frame. -/
def leftover (limit : Nat) (journal : List (Deed κ)) : List UInt8 :=
  (journal.foldl Deed.feed { limit }).buffer

/-- All messages that were completed had been in the buffer. -/
def Taken : Deframer → List (Deed κ) → Prop
  | _, [] => True
  | d, .received bytes messages :: journal =>
    messages = (Client.takeIn d bytes).1 ∧ Taken (Client.takeIn d bytes).2 journal
  | d, _ :: journal => Taken d journal

theorem taken_append {d : Deframer} {before after : List (Deed κ)} :
    Taken d (before ++ after) ↔ Taken d before ∧ Taken (before.foldl Deed.feed d) after := by
  induction before generalizing d with
  | nil => simp [Taken]
  | cons deed before ih => cases deed <;> simp [Taken, Deed.feed, ih, and_assoc]

/-- Feeding keeps the limit, and nothing can be taken of what is left. -/
theorem feed_alone {limit : Nat} {left : List UInt8} (halone : Splits limit left [] left)
    (journal : List (Deed κ)) :
    ∃ rest, journal.foldl Deed.feed ⟨left, limit⟩ = ⟨rest, limit⟩ ∧ Splits limit rest [] rest := by
  induction journal generalizing left with
  | nil => exact ⟨left, rfl, halone⟩
  | cons deed journal ih =>
    cases deed with
    | received bytes messages =>
      obtain ⟨rest, htaken, hrest⟩ := Client.takeIn_alone ⟨left, limit⟩ bytes
      rw [List.foldl_cons, Deed.feed, htaken]
      exact ih hrest
    | _ => exact ih halone

/-- However a stream is cut into pieces, its frames are taken. -/
theorem Taken.of_splits {limit : Nat} {left rest : List UInt8} {contents : List (List UInt8)}
    {journal : List (Deed κ)} (h : Taken ⟨left, limit⟩ journal)
    (halone : Splits limit left [] left)
    (hsplits : Splits limit (left ++ received journal) contents rest) :
    completed journal = contents.filterMap Message.decode? ∧
      journal.foldl Deed.feed ⟨left, limit⟩ = ⟨rest, limit⟩ := by
  induction journal generalizing left contents with
  | nil =>
    rw [received, List.flatMap_nil, List.append_nil] at hsplits
    obtain ⟨rfl, rfl⟩ := halone.eq_of_alone hsplits
    exact ⟨rfl, rfl⟩
  | cons deed journal ih =>
    cases deed with
    | received bytes messages =>
      obtain ⟨hmessages, hjournal⟩ := h
      have hbytes : left ++ received (.received bytes messages :: journal) =
          left ++ bytes ++ received journal := by
        simp [received, Deed.bytes]
      rw [hbytes] at hsplits
      obtain ⟨early, mid, late, hearly, hlate, rfl⟩ := hsplits.cut
      have htaken := Client.takeIn_of_splits hearly
      rw [htaken] at hmessages hjournal
      obtain ⟨hcompleted, hfeed⟩ := ih hjournal hearly.rest_alone hlate
      constructor
      · rw [List.filterMap_append, ← hcompleted]
        exact congrArg (· ++ completed journal) hmessages
      · rw [List.foldl_cons, Deed.feed, htaken, hfeed]
    | _ => exact ih h halone hsplits

theorem Taken.leftover_eq {limit : Nat} {journal : List (Deed κ)} {contents : List (List UInt8)}
    {rest : List UInt8} (h : Taken { limit } journal)
    (hsplits : Splits limit (received journal) contents rest) : leftover limit journal = rest :=
  congrArg Deframer.buffer (h.of_splits (.nil limit) hsplits).2

/-- A stretch of a journal is taken for what follows the bytes that were left. -/
theorem Taken.between {limit : Nat} {before between after : List (Deed κ)}
    {contents : List (List UInt8)} {rest : List UInt8}
    (h : Taken { limit } (before ++ (between ++ after)))
    (hsplits : Splits limit (leftover limit before ++ received between) contents rest) :
    completed between = contents.filterMap Message.decode? := by
  obtain ⟨left, hleft, halone⟩ := feed_alone (.nil limit) before
  have hbetween := (taken_append.mp (taken_append.mp h).2).1
  rw [leftover, hleft] at hsplits
  rw [hleft] at hbetween
  exact (hbetween.of_splits halone hsplits).1

/-! ## What a course keeps -/

/-- The buffer holds what the journal says, and all messages came out of it. -/
structure Framed (limit : Nat) (s : Session) : Prop where
  taken : Taken { limit } s.journal
  deframer {seat : ClientSeat} :
    s.client = some seat → seat.client.deframer = s.journal.foldl Deed.feed { limit }

namespace Framed

variable {limit : Nat} {s t : Session} {seat : ClientSeat}

/-- The client may go. -/
theorem leave (h : Framed limit s) (hjournal : t.journal = s.journal)
    (hclient : ∀ seat, t.client = some seat → ∃ before, s.client = some before ∧
      seat.client.deframer = before.client.deframer) : Framed limit t where
  taken := hjournal ▸ h.taken
  deframer hseat := by
    obtain ⟨before, hbefore, hsame⟩ := hclient _ hseat
    rw [hsame, hjournal]
    exact h.deframer hbefore

theorem tend (h : Framed limit s) (f : Tenure → Tenure) : Framed limit (s.tendClient f) := by
  apply h.leave (Course.journal_tendClient f)
  intro seat hseat
  obtain ⟨before, hbefore, hsame⟩ := Course.client_tendClient hseat
  exact ⟨before, hbefore, congrArg Client.deframer hsame⟩

theorem adjust (h : Framed limit s) (f : Client Completion → Client Completion)
    (hf : ∀ c, (f c).deframer = c.deframer) : Framed limit (s.adjustClient f) := by
  apply h.leave (Course.journal_adjustClient f)
  intro seat hseat
  obtain ⟨before, hbefore, rfl⟩ := Option.map_eq_some_iff.mp hseat
  exact ⟨before, hbefore, hf before.client⟩

/-- Nothing comes in. -/
theorem record (h : Framed limit s) (deed : Deed Completion)
    (hdeed : ∀ bytes messages, deed ≠ .received bytes messages) : Framed limit (s.record deed) where
  taken := by
    rw [Course.journal_record, taken_append]
    refine ⟨h.taken, ?_⟩
    cases deed with
    | received bytes messages => exact absurd rfl (hdeed bytes messages)
    | _ => trivial
  deframer hseat := by
    rw [Course.journal_record, List.foldl_append, ← h.deframer hseat]
    cases deed with
    | received bytes messages => exact absurd rfl (hdeed bytes messages)
    | _ => rfl

theorem receive (h : Framed limit s) (hs : s.client = some seat) (bytes : List UInt8) :
    Framed limit ((s.adjustClient fun c => (c.receive bytes).2).record
      (.received bytes (seat.client.receive bytes).1)) := by
  have hdeframer := h.deframer hs
  constructor
  · rw [Course.journal_record, Course.journal_adjustClient, taken_append, ← hdeframer]
    exact ⟨h.taken, rfl, trivial⟩
  · intro after hafter
    rw [Course.client_record, Course.client_adjustClient hs] at hafter
    cases hafter
    rw [Course.journal_record, Course.journal_adjustClient, List.foldl_append, ← hdeframer]
    rfl

end Framed

theorem Course.framed {limit : Nat} {messages : List Message} {s t : Session}
    (h : Course messages s t) (hs : Framed limit s) : Framed limit t := by
  induction h with
  | silent hclient hjournal =>
    exact hs.leave hjournal fun seat hseat => ⟨seat, hclient ▸ hseat, rfl⟩
  | trans _ _ ih₁ ih₂ => exact ih₂ (ih₁ hs)
  | up s => exact hs.record .up nofun
  | down s => exact hs.record .down nofun
  | adjust s hf => exact hs.adjust _ fun c => (hf c).deframer
  | allocate _ =>
    have htaken := hs.adjust (fun c => c.allocate.2) fun _ => rfl
    exact htaken.record (.allocated _) nofun
  | register completion _ =>
    have htaken := hs.adjust (fun c => (c.register completion).2) fun _ => rfl
    exact (htaken.record (.allocated _) nofun).record (.registered _ completion) nofun
  | cancel n _ =>
    have htaken := hs.adjust (fun c => (c.take n).2) fun _ => rfl
    exact htaken.record (.cancelled n _) nofun
  | answer s n ok => exact hs.record (.answered n ok) nofun
  | miss _ _ => exact hs.adjust (fun c => (c.take _).2) fun _ => rfl
  | @run _ _ n _ _ _ _ _ =>
    have htaken := hs.adjust (fun c => (c.take n).2) fun _ => rfl
    exact htaken.record (.ran n _ _) nofun
  | release s => exact hs.tend _
  | held _ _ ih => exact (ih (hs.tend _)).tend _
  | receive bytes hseat _ ih => exact ih (hs.receive hseat bytes)
  | within _ ih => exact ih hs
  | @handle message _ _ _ _ _ _ ih₁ ih₂ =>
    have hended := (ih₁ (hs.record (.began message) nofun)).record (.ended message) nofun
    exact ih₂ hended

theorem Framed.start (files : FileTree) (config : ClientConfig) :
    Framed config.frameLimit ((Session.fresh files).seatClient config) where
  taken := trivial
  deframer hseat := by
    rw [Session.client_seatClient] at hseat
    cases hseat
    rfl

/-! ## Whole runs -/

/-- What is true of the bytes of every connection in every run. -/
structure FramesKept (limit : Nat) (s : Session) : Prop where
  /-- The messages that bytes complete are handled there and then, one after the other. -/
  handled : Word [] s.journal
  /-- What comes in is taken for what follows the bytes that are left, whether or not a connection
  was lost in between. -/
  taken {before between after : List (Deed Completion)} {contents : List (List UInt8)}
    {rest : List UInt8} :
    s.journal = before ++ (between ++ after) →
      Splits limit (leftover limit before ++ received between) contents rest →
        completed between = contents.filterMap Message.decode?
  /-- Left are the bytes behind the last complete frame. -/
  left {before after : List (Deed Completion)} {contents : List (List UInt8)} {rest : List UInt8} :
    s.journal = before ++ after → Splits limit (received before) contents rest →
      leftover limit before = rest
  /-- If nothing is left, the messages of a connection are those in its own bytes. -/
  own {before own after : List (Deed Completion)} {contents : List (List UInt8)}
    {rest : List UInt8} :
    s.journal = before ++ .up :: (own ++ after) → Uninterrupted own → leftover limit before = [] →
      Splits limit (received own) contents rest →
        completed own = contents.filterMap Message.decode?
  /-- Only if nothing is left, the messages of whatever comes next are those in its own bytes. -/
  exactly {seat : ClientSeat} :
    s.client = some seat → Message.syncCompleted.encode.length ≤ limit →
      (seat.client.deframer.Faithful ↔ leftover limit s.journal = [])

/-- In every run of a session with a client the messages of a connection are those in the frames of
its bytes, unless an earlier connection was lost within a frame. -/
theorem Session.framesKept (files : FileTree) (config : ClientConfig) (commands : List Command) :
    FramesKept config.frameLimit (((fresh files).seatClient config).steps commands).2 := by
  have hcourse := course_steps ((fresh files).seatClient config) commands
  have h := hcourse.framed (.start files config)
  refine
    { handled := ?_
      taken := fun hjournal hsplits => (hjournal ▸ h.taken).between hsplits
      left := fun hjournal hsplits => (taken_append.mp (hjournal ▸ h.taken)).1.leftover_eq hsplits
      own := fun {before own after contents rest} hjournal _ hnothing hsplits => ?_
      exactly := fun {seat} hseat hlimit => ?_ }
  · obtain ⟨w, hjournal, hword⟩ := hcourse.word
    rw [journal_start, List.nil_append] at hjournal
    rwa [hjournal]
  · have hup : before ++ .up :: (own ++ after) = before ++ [.up] ++ (own ++ after) := by simp
    rw [hup] at hjournal
    apply (hjournal ▸ h.taken).between
    rw [leftover, List.foldl_append]
    change Splits _ (leftover _ before ++ _) _ _
    rwa [hnothing]
  · rw [h.deframer hseat, leftover]
    obtain ⟨rest, hrest, halone⟩ := feed_alone (.nil config.frameLimit)
      (((fresh files).seatClient config).steps commands).2.journal
    rw [hrest]
    exact Deframer.faithful_iff hlimit halone

end ValueTree
