import ValueTree.Session

/-!
# Courses

What can become of the client of a session and of its journal while commands are carried out: single
deeds one after the other, and within the handling of a message whatever its callbacks bring. All
that is said of whole runs follows from this.
-/

namespace ValueTree

/-! ## Journals -/

/-- A piece of a journal in which every message that was begun was ended. It starts with the
handling of some messages, one after the other. -/
inductive Word {κ : Type} : List Message → List (Deed κ) → Prop
  | nil : Word [] []
  | up : Word [] [.up]
  | down : Word [] [.down]
  | answered (n : UInt32) (ok : Bool) : Word [] [.answered n ok]
  | allocated (n : UInt32) : Word [] [.allocated n]
  | registered (n : UInt32) (completion : κ) : Word [] [.registered n completion]
  | cancelled (n : UInt32) (wasPending : Bool) : Word [] [.cancelled n wasPending]
  | ran (n : UInt32) (completion : κ) (ok : Bool) : Word [] [.ran n completion ok]
  | append {u v : List (Deed κ)} : Word [] u → Word [] v → Word [] (u ++ v)
  | within {messages : List Message} {w : List (Deed κ)} : Word messages w → Word [] w
  | received {messages : List Message} {w : List (Deed κ)} (bytes : List UInt8) :
    Word messages w → Word [] (.received bytes messages :: w)
  | handled (message : Message) {rest : List Message} {u v : List (Deed κ)} :
    Word [] u → Word rest v → Word (message :: rest) (.began message :: (u ++ .ended message :: v))

/-- The values of a result are in place, and its handling has not ended. -/
def AtResult {κ : Type} (journal : List (Deed κ)) (n : UInt32) (ok : Bool) : Prop :=
  ∃ before status values during,
    journal = before ++ .began (.result n status values) :: (during ++ [.answered n ok]) ∧
      Word [] during ∧ ok = status.isSuccess

/-! ## Courses -/

/-- The completions, the numbers and the bytes of a client are those of another. -/
structure Client.SameBooks {κ : Type} (c d : Client κ) : Prop where
  pending : c.pending = d.pending
  listening : c.listening = d.listening
  nextSequence : c.nextSequence = d.nextSequence
  deframer : c.deframer = d.deframer

/-- A course from one session to another. It starts with the handling of some messages, one after
the other. -/
inductive Course : List Message → Session → Session → Prop
  /-- Neither the client nor its journal changes. -/
  | silent {s t : Session} : t.client = s.client → t.journal = s.journal → Course [] s t
  | trans {s t u : Session} : Course [] s t → Course [] t u → Course [] s u
  | up (s : Session) : Course [] s (s.record .up)
  | down (s : Session) : Course [] s (s.record .down)
  | adjust (s : Session) {f : Client Completion → Client Completion} :
    (∀ c, (f c).SameBooks c) → Course [] s (s.adjustClient f)
  | allocate {s : Session} {seat : ClientSeat} : s.client = some seat →
    Course [] s ((s.adjustClient fun c => c.allocate.2).record
      (.allocated seat.client.nextSequence))
  | register {s : Session} {seat : ClientSeat} (completion : Completion) : s.client = some seat →
    Course [] s (((s.adjustClient fun c => (c.register completion).2).record
      (.allocated seat.client.nextSequence)).record
        (.registered seat.client.nextSequence completion))
  | cancel {s : Session} {seat : ClientSeat} (n : UInt32) : s.client = some seat →
    Course [] s ((s.adjustClient fun c => (c.take n).2).record
      (.cancelled n (seat.client.take n).1.isSome))
  | answer (s : Session) (n : UInt32) (ok : Bool) : Course [] s (s.record (.answered n ok))
  /-- A result without a completion. -/
  | miss {s : Session} {seat : ClientSeat} {n : UInt32} : s.client = some seat →
    (seat.client.take n).1 = none → Course [] s (s.adjustClient fun c => (c.take n).2)
  /-- A result brings its completion to run. -/
  | run {s : Session} {seat : ClientSeat} {n : UInt32} {ok : Bool} {completion : Completion} :
    s.client = some seat → (seat.client.take n).1 = some completion → AtResult s.journal n ok →
    Course [] s ((s.adjustClient fun c => (c.take n).2).record (.ran n completion ok))
  | release (s : Session) : Course [] s (s.tendClient Tenure.release)
  | held {s t : Session} : s.client.isSome = true →
    Course [] (s.tendClient Tenure.hold) t → Course [] s (t.tendClient Tenure.letGo)
  /-- Bytes come in, and the messages that they complete are handled at once. -/
  | receive {s t : Session} {seat : ClientSeat} (bytes : List UInt8) : s.client = some seat →
    Course (seat.client.receive bytes).1
      ((s.adjustClient fun c => (c.receive bytes).2).record
        (.received bytes (seat.client.receive bytes).1)) t →
    Course [] s t
  | within {messages : List Message} {s t : Session} : Course messages s t → Course [] s t
  | handle {message : Message} {rest : List Message} {s t u : Session} :
    Course [] (s.record (.began message)) t → Course rest (t.record (.ended message)) u →
    Course (message :: rest) s u

namespace Course

variable {messages : List Message} {s t : Session}

theorem refl (s : Session) : Course [] s s := silent rfl rfl

@[simp]
theorem journal_adjustClient (f : Client Completion → Client Completion) :
    (s.adjustClient f).journal = s.journal := rfl

@[simp]
theorem journal_tendClient (f : Tenure → Tenure) : (s.tendClient f).journal = s.journal := by
  unfold Session.tendClient
  split
  · rfl
  · dsimp only
    split <;> rfl

/-- Whoever takes hold of the client or lets go of it, it is the same client if it stays. -/
theorem client_tendClient {f : Tenure → Tenure} {seat : ClientSeat}
    (h : (s.tendClient f).client = some seat) :
    ∃ before, s.client = some before ∧ seat.client = before.client := by
  unfold Session.tendClient at h
  split at h
  · rename_i hnone
    rw [hnone] at h
    cases h
  · rename_i before hbefore
    dsimp only at h
    split at h
    · cases h
    · cases h
      exact ⟨before, hbefore, rfl⟩

@[simp]
theorem journal_record (deed : Deed Completion) :
    (s.record deed).journal = s.journal ++ [deed] := rfl

/-- A course writes one word into the journal. -/
theorem word (h : Course messages s t) : ∃ w, t.journal = s.journal ++ w ∧ Word messages w := by
  induction h with
  | silent _ hjournal => exact ⟨[], by rw [hjournal, List.append_nil], .nil⟩
  | trans _ _ ih₁ ih₂ =>
    obtain ⟨u, hu, wu⟩ := ih₁
    obtain ⟨v, hv, wv⟩ := ih₂
    exact ⟨u ++ v, by rw [hv, hu, List.append_assoc], .append wu wv⟩
  | up s => exact ⟨_, rfl, .up⟩
  | down s => exact ⟨_, rfl, .down⟩
  | adjust s _ => exact ⟨[], by simp, .nil⟩
  | allocate _ => exact ⟨_, rfl, .allocated _⟩
  | register completion _ =>
    exact ⟨_, List.append_assoc .., .append (.allocated _) (.registered _ _)⟩
  | cancel n _ => exact ⟨_, rfl, .cancelled _ _⟩
  | answer s n ok => exact ⟨_, rfl, .answered n ok⟩
  | miss _ _ => exact ⟨[], by simp, .nil⟩
  | run _ _ _ => exact ⟨_, rfl, .ran _ _ _⟩
  | release s => exact ⟨[], by simp, .nil⟩
  | held _ _ ih => simpa using ih
  | receive bytes _ _ ih =>
    obtain ⟨w, hw, ww⟩ := ih
    exact ⟨_, by rw [hw, journal_record, List.append_assoc]; rfl, .received bytes ww⟩
  | within _ ih =>
    obtain ⟨w, hw, ww⟩ := ih
    exact ⟨w, hw, .within ww⟩
  | handle _ _ ih₁ ih₂ =>
    obtain ⟨u, hu, wu⟩ := ih₁
    obtain ⟨v, hv, wv⟩ := ih₂
    exact ⟨_, by rw [hv, journal_record, hu, journal_record]; simp, .handled _ wu wv⟩

end Course

/-! ## Where a session with a client starts -/

namespace Session

theorem client_seatClient (s : Session) (config : ClientConfig) :
    (s.seatClient config).client =
      some { client := Client.new config, listener := (s.listeners.subscribe .client).1 } := rfl

theorem journal_start (files : FileTree) (config : ClientConfig) :
    ((fresh files).seatClient config).journal = [] := rfl

end Session

/-! ## Clients that are held -/

/-- Somebody is at work with the client. -/
def Session.Held (s : Session) : Prop := ∃ seat, s.client = some seat ∧ 0 < seat.tenure.holders

namespace Course

variable {messages : List Message} {s t : Session}

theorem client_record (deed : Deed Completion) : (s.record deed).client = s.client := rfl

theorem client_adjustClient {seat : ClientSeat} (h : s.client = some seat)
    (f : Client Completion → Client Completion) :
    (s.adjustClient f).client = some { seat with client := f seat.client } := by
  rw [Session.adjustClient, h, Option.map_some]

theorem client_hold {seat : ClientSeat} (h : s.client = some seat) :
    (s.tendClient Tenure.hold).client = some { seat with tenure := seat.tenure.hold } := by
  have : seat.tenure.hold.isOver = false := by simp [Tenure.hold, Tenure.isOver]
  simp [Session.tendClient, h, this]

/-- A client that is held stays, and everybody who takes hold of it lets go again. -/
theorem holders (h : Course messages s t) {seat : ClientSeat} (hs : s.client = some seat)
    (hheld : 0 < seat.tenure.holders) :
    ∃ after, t.client = some after ∧ after.tenure.holders = seat.tenure.holders := by
  induction h generalizing seat with
  | silent hclient _ => exact ⟨seat, hclient.trans hs, rfl⟩
  | trans _ _ ih₁ ih₂ =>
    obtain ⟨mid, hmid, he₁⟩ := ih₁ hs hheld
    obtain ⟨after, hafter, he₂⟩ := ih₂ hmid (he₁ ▸ hheld)
    exact ⟨after, hafter, he₂.trans he₁⟩
  | up _ | down _ | answer _ _ _ => exact ⟨seat, hs, rfl⟩
  | adjust _ _ => exact ⟨_, client_adjustClient hs _, rfl⟩
  | allocate _ => exact ⟨_, client_adjustClient hs fun c => c.allocate.2, rfl⟩
  | register completion _ =>
    exact ⟨_, client_adjustClient hs fun c => (c.register completion).2, rfl⟩
  | cancel n _ => exact ⟨_, client_adjustClient hs fun c => (c.take n).2, rfl⟩
  | miss _ _ => exact ⟨_, client_adjustClient hs _, rfl⟩
  | @run _ _ n _ _ _ _ _ => exact ⟨_, client_adjustClient hs fun c => (c.take n).2, rfl⟩
  | release s =>
    have hstays : seat.tenure.release.isOver = false := by
      simp [Tenure.release, Tenure.isOver, Nat.ne_of_gt hheld]
    have hafter : (s.tendClient Tenure.release).client =
        some { seat with tenure := seat.tenure.release } := by
      simp [Session.tendClient, hs, hstays]
    exact ⟨_, hafter, rfl⟩
  | held _ _ ih =>
    obtain ⟨mid, hmid, he⟩ := ih (client_hold hs) (by simp [Tenure.hold])
    have he : mid.tenure.holders = seat.tenure.holders + 1 := he
    have hstays : mid.tenure.letGo.isOver = false := by
      simp [Tenure.letGo, Tenure.isOver, he, Nat.ne_of_gt hheld]
    refine ⟨{ mid with tenure := mid.tenure.letGo }, by simp [Session.tendClient, hmid, hstays], ?_⟩
    simp [Tenure.letGo, he]
  | receive bytes _ _ ih =>
    have htaken := client_adjustClient hs fun c => (c.receive bytes).2
    obtain ⟨after, hafter, he⟩ := ih ((client_record _).trans htaken) hheld
    exact ⟨after, hafter, he⟩
  | within _ ih => exact ih hs hheld
  | handle _ _ ih₁ ih₂ =>
    obtain ⟨mid, hmid, he₁⟩ := ih₁ hs hheld
    obtain ⟨after, hafter, he₂⟩ := ih₂ hmid (he₁ ▸ hheld)
    exact ⟨after, hafter, he₂.trans he₁⟩

theorem keeps_held (h : Course messages s t) (hs : s.Held) : t.Held := by
  obtain ⟨seat, hseat, hheld⟩ := hs
  obtain ⟨after, hafter, he⟩ := h.holders hseat hheld
  exact ⟨after, hafter, he ▸ hheld⟩

end Course

end ValueTree
