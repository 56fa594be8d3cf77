import ValueTree.Proofs.Session.Orderly

/-!
# Completions

The journal tells which completions are open: they were registered and have neither run nor been
cancelled since. In every run the client waits for exactly these, and a completion runs only while
it is open and a result of its number is handled.
-/

namespace ValueTree

variable {κ : Type}

/-! ## What a journal tells -/

/-- The deed ends the wait for the result of a number, or starts it anew. -/
def Deed.Settles (n : UInt32) : Deed κ → Prop
  | .ran m _ _ | .cancelled m true | .registered m _ => m = n
  | _ => False

/-- The completion of a number is registered, and nothing has happened to it since. -/
def Open (journal : List (Deed κ)) (n : UInt32) (completion : κ) : Prop :=
  ∃ before after, journal = before ++ .registered n completion :: after ∧
    ∀ deed ∈ after, ¬deed.Settles n

/-- The deed is in order, coming after a journal. -/
def Deed.InOrder (before : List (Deed κ)) : Deed κ → Prop
  | .ran n completion ok => Open before n completion ∧ AtResult before n ok
  | .cancelled n true => ∃ completion, Open before n completion
  | .registered n _ => ∃ earlier, before = earlier ++ [.allocated n]
  | _ => True

/-- Every deed was in order when it was done. -/
def InOrder (journal : List (Deed κ)) : Prop :=
  ∀ before deed after, journal = before ++ deed :: after → deed.InOrder before

def Deed.number? : Deed κ → Option UInt32
  | .allocated n => some n
  | _ => none

/-- The numbers that were allocated, in their order. -/
def numbers (journal : List (Deed κ)) : List UInt32 := journal.filterMap Deed.number?

/-- An item in a list that was made longer is the new one, or it was there before. -/
theorem split_concat {α : Type} {xs front back : List α} {x y : α} :
    xs ++ [x] = front ++ y :: back ↔
      (back = [] ∧ xs = front ∧ x = y) ∨ ∃ rest, back = rest ++ [x] ∧ xs = front ++ y :: rest := by
  constructor
  · intro h
    rcases List.eq_nil_or_concat back with rfl | ⟨rest, last, rfl⟩
    · obtain ⟨hfront, hlast⟩ := List.append_inj' h rfl
      exact Or.inl ⟨rfl, hfront, List.singleton_inj.mp hlast⟩
    · rw [List.concat_eq_append, ← List.cons_append, ← List.append_assoc] at h
      obtain ⟨hfront, hlast⟩ := List.append_inj' h rfl
      rw [List.singleton_inj.mp hlast]
      exact Or.inr ⟨rest, List.concat_eq_append, hfront⟩
  · rintro (⟨rfl, rfl, rfl⟩ | ⟨rest, rfl, rfl⟩) <;> simp

theorem open_concat {journal : List (Deed κ)} {deed : Deed κ} {n : UInt32} {completion : κ} :
    Open (journal ++ [deed]) n completion ↔
      deed = .registered n completion ∨ Open journal n completion ∧ ¬deed.Settles n := by
  constructor
  · rintro ⟨before, after, hsplit, hafter⟩
    rcases split_concat.mp hsplit with ⟨-, -, hdeed⟩ | ⟨rest, rfl, hjournal⟩
    · exact Or.inl hdeed
    · refine Or.inr ⟨⟨before, rest, hjournal, fun d hd => hafter d ?_⟩, hafter deed (by simp)⟩
      exact List.mem_append_left _ hd
  · rintro (rfl | ⟨⟨before, after, rfl, hafter⟩, hdeed⟩)
    · exact ⟨journal, [], rfl, nofun⟩
    · refine ⟨before, after ++ [deed], by simp, fun d hd => ?_⟩
      rcases List.mem_append.mp hd with hd | hd
      · exact hafter d hd
      · rwa [List.mem_singleton.mp hd]

theorem inOrder_concat {journal : List (Deed κ)} {deed : Deed κ} :
    InOrder (journal ++ [deed]) ↔ InOrder journal ∧ deed.InOrder journal := by
  constructor
  · intro h
    refine ⟨fun before d after hsplit => ?_, h journal deed [] rfl⟩
    exact h before d (after ++ [deed]) (by rw [hsplit]; simp)
  · rintro ⟨h, hdeed⟩ before d after hsplit
    rcases split_concat.mp hsplit with ⟨-, rfl, rfl⟩ | ⟨rest, -, hjournal⟩
    · exact hdeed
    · exact h before d rest hjournal

@[simp]
theorem numbers_concat (journal : List (Deed κ)) (deed : Deed κ) :
    numbers (journal ++ [deed]) = numbers journal ++ deed.number?.toList := by
  rw [numbers, List.filterMap_append]
  cases h : deed.number? <;> simp [numbers, h]

/-! ## The books of a client -/

/-- The client waits for the completions that are open, and listens as long as there are any. -/
structure Books (c : Client κ) (journal : List (Deed κ)) : Prop where
  pending (n : UInt32) (completion : κ) : (n, completion) ∈ c.pending ↔ Open journal n completion
  listening : c.listening = !c.pending.isEmpty

namespace Books

variable {c d : Client κ} {journal : List (Deed κ)} {deed : Deed κ}

theorem same (h : Books c journal) (hpending : d.pending = c.pending)
    (hlistening : d.listening = c.listening) : Books d journal where
  pending := by rw [hpending]; exact h.pending
  listening := by rw [hpending, hlistening]; exact h.listening

theorem start (config : ClientConfig) : Books (Client.new config : Client κ) [] where
  pending n completion := by simp [Client.new, Open]
  listening := rfl

/-- A deed that settles nothing changes nothing. -/
theorem concat (h : Books c journal) (hdeed : ∀ n, ¬deed.Settles n) :
    Books c (journal ++ [deed]) where
  pending n completion := by
    rw [h.pending, open_concat]
    constructor
    · exact fun hopen => Or.inr ⟨hopen, hdeed n⟩
    · rintro (rfl | hopen)
      · exact absurd rfl (hdeed n)
      · exact hopen.1
  listening := h.listening

theorem mem_register {n : UInt32} {x completion : κ} :
    (n, x) ∈ (c.register completion).2.pending ↔
      c.nextSequence = n ∧ completion = x ∨ (n, x) ∈ c.pending ∧ c.nextSequence ≠ n := by
  rw [Client.register, Client.allocate]
  simp only [List.mem_append, List.mem_filter, List.mem_singleton, Prod.mk.injEq,
    decide_eq_true_eq]
  rw [or_comm, eq_comm, @eq_comm _ x, ne_comm]

theorem register (h : Books c journal) (completion : κ) :
    Books (c.register completion).2
      (journal ++ [.allocated c.nextSequence] ++ [.registered c.nextSequence completion]) where
  pending n x := by
    rw [open_concat, open_concat, ← h.pending, mem_register]
    simp [Deed.Settles]
  listening := by simp [Client.register]

theorem mem_take {n m : UInt32} {x : κ} :
    (m, x) ∈ (c.take n).2.pending ↔ (m, x) ∈ c.pending ∧ m ≠ n := by
  simp [Client.take]

theorem listening_take (h : Books c journal) (n : UInt32) :
    (c.take n).2.listening = !(c.take n).2.pending.isEmpty := by
  simp only [Client.take, h.listening]
  cases hp : c.pending <;> simp

theorem mem_of_take {n : UInt32} {x : κ} (h : (c.take n).1 = some x) : (n, x) ∈ c.pending := by
  obtain ⟨before, after, hpending, -⟩ := List.lookup_eq_some_iff.mp h
  rw [hpending]
  simp

theorem not_mem_of_take {n : UInt32} (h : (c.take n).1 = none) (x : κ) : (n, x) ∉ c.pending := by
  intro hx
  have := List.lookup_eq_none_iff.mp h _ hx
  simp at this

/-- Whoever is taken is settled. -/
theorem take (h : Books c journal) {n : UInt32} (hsettles : ∀ m, deed.Settles m ↔ m = n)
    (hdeed : ∀ m x, deed ≠ .registered m x) : Books (c.take n).2 (journal ++ [deed]) where
  pending m x := by
    rw [mem_take, open_concat, h.pending, hsettles]
    simp [hdeed m x]
  listening := h.listening_take n

/-- Nobody is taken. -/
theorem miss (h : Books c journal) {n : UInt32} (hnone : (c.take n).1 = none) :
    Books (c.take n).2 journal where
  pending m x := by
    rw [mem_take, h.pending]
    constructor
    · exact And.left
    · intro hopen
      refine ⟨hopen, ?_⟩
      rintro rfl
      exact not_mem_of_take hnone x ((h.pending m x).mpr hopen)
  listening := h.listening_take n

end Books

/-! ## The numbers of a client -/

/-- The numbers in the order in which they are given out. -/
def numberAt : Nat → UInt32
  | 0 => 1
  | k + 1 => Client.following (numberAt k)

/-- Up to the last but one 32-bit number they count from one. -/
theorem toNat_numberAt {k : Nat} (h : k < UInt32.size - 1) : (numberAt k).toNat = k + 1 := by
  induction k with
  | zero => rfl
  | succ k ih =>
    have hk := ih (Nat.lt_of_succ_lt h)
    have hsucc : (numberAt k + 1).toNat = k + 2 := by
      rw [UInt32.toNat_add, hk]
      exact Nat.mod_eq_of_lt (Nat.add_lt_of_lt_sub h)
    have hne : numberAt k + 1 ≠ 0 := by
      intro h0
      rw [h0] at hsucc
      simp at hsucc
    rw [numberAt, Client.following, if_neg hne, hsucc]

/-! ## Accounts -/

/-- What a course keeps. -/
structure Accounted (s : Session) : Prop where
  inOrder : InOrder s.journal
  numbers : numbers s.journal = (List.range (numbers s.journal).length).map numberAt
  books {seat : ClientSeat} : s.client = some seat → Books seat.client s.journal
  next {seat : ClientSeat} :
    s.client = some seat → seat.client.nextSequence = numberAt (ValueTree.numbers s.journal).length

namespace Accounted

variable {s t : Session} {seat : ClientSeat}

/-- A deed that neither settles nor allocates anything. -/
theorem record (h : Accounted s) {deed : Deed Completion} (hsettles : ∀ n, ¬deed.Settles n)
    (hnumber : deed.number? = none) (hdeed : deed.InOrder s.journal) :
    Accounted (s.record deed) where
  inOrder := inOrder_concat.mpr ⟨h.inOrder, hdeed⟩
  numbers := by
    rw [Course.journal_record, numbers_concat, hnumber, Option.toList_none, List.append_nil]
    exact h.numbers
  books hseat := (h.books hseat).concat hsettles
  next hseat := by
    rw [Course.journal_record, numbers_concat, hnumber, Option.toList_none, List.append_nil]
    exact h.next hseat

/-- The client may go. -/
theorem leave (h : Accounted s) (hjournal : t.journal = s.journal)
    (hclient : ∀ seat, t.client = some seat → ∃ before, s.client = some before ∧
      seat.client.pending = before.client.pending ∧
      seat.client.listening = before.client.listening ∧
      seat.client.nextSequence = before.client.nextSequence) : Accounted t where
  inOrder := by rw [hjournal]; exact h.inOrder
  numbers := by rw [hjournal]; exact h.numbers
  books hseat := by
    obtain ⟨before, hbefore, hpending, hlistening, -⟩ := hclient _ hseat
    rw [hjournal]
    exact (h.books hbefore).same hpending hlistening
  next hseat := by
    obtain ⟨before, hbefore, -, -, hnext⟩ := hclient _ hseat
    rw [hjournal, hnext]
    exact h.next hbefore

theorem tend (h : Accounted s) (f : Tenure → Tenure) : Accounted (s.tendClient f) := by
  apply h.leave (Course.journal_tendClient f)
  intro seat hseat
  obtain ⟨before, hbefore, hsame⟩ := Course.client_tendClient hseat
  rw [hsame]
  exact ⟨before, hbefore, rfl, rfl, rfl⟩

theorem adjust (h : Accounted s) {f : Client Completion → Client Completion}
    (hf : ∀ c, (f c).pending = c.pending ∧ (f c).listening = c.listening ∧
      (f c).nextSequence = c.nextSequence) : Accounted (s.adjustClient f) := by
  apply h.leave (Course.journal_adjustClient f)
  intro seat hseat
  obtain ⟨before, hbefore, rfl⟩ := Option.map_eq_some_iff.mp hseat
  exact ⟨before, hbefore, hf before.client⟩

/-- With a client at work it is enough to look at this one. -/
theorem of_client (hclient : t.client = some seat) (hinOrder : InOrder t.journal)
    (hnumbers : ValueTree.numbers t.journal =
      (List.range (ValueTree.numbers t.journal).length).map numberAt)
    (hbooks : Books seat.client t.journal)
    (hnext : seat.client.nextSequence = numberAt (ValueTree.numbers t.journal).length) :
    Accounted t where
  inOrder := hinOrder
  numbers := hnumbers
  books h := by
    cases hclient.symm.trans h
    exact hbooks
  next h := by
    cases hclient.symm.trans h
    exact hnext

/-- The completion of a number goes, with a deed that settles it or, if there is none, without. -/
theorem take (h : Accounted s) (hs : s.client = some seat) {n : UInt32} {deed : Deed Completion}
    (hbooks : Books (seat.client.take n).2 (s.journal ++ [deed])) (hnumber : deed.number? = none)
    (hdeed : deed.InOrder s.journal) :
    Accounted ((s.adjustClient fun c => (c.take n).2).record deed) := by
  have hclient := Course.client_adjustClient hs fun c => (c.take n).2
  have hnext := h.next hs
  apply of_client ((Course.client_record deed).trans hclient)
  · exact inOrder_concat.mpr ⟨h.inOrder, hdeed⟩
  · rw [Course.journal_record, numbers_concat, hnumber, Option.toList_none, List.append_nil]
    exact h.numbers
  · exact hbooks
  · rw [Course.journal_record, numbers_concat, hnumber, Option.toList_none, List.append_nil]
    exact hnext

theorem numbers_allocated (h : Accounted s) (hs : s.client = some seat) :
    ValueTree.numbers (s.journal ++ [.allocated seat.client.nextSequence]) =
      (List.range ((ValueTree.numbers s.journal).length + 1)).map numberAt := by
  rw [numbers_concat, List.range_succ, List.map_append, ← h.numbers, h.next hs]
  rfl

theorem allocate (h : Accounted s) (hs : s.client = some seat) :
    Accounted ((s.adjustClient fun c => c.allocate.2).record
      (.allocated seat.client.nextSequence)) := by
  have hnumbers := h.numbers_allocated hs
  have hclient := Course.client_adjustClient hs fun c => c.allocate.2
  apply of_client ((Course.client_record _).trans hclient)
  · exact inOrder_concat.mpr ⟨h.inOrder, trivial⟩
  · rw [Course.journal_record, Course.journal_adjustClient, hnumbers]
    simp
  · have hbooks : Books seat.client.allocate.2 s.journal := (h.books hs).same rfl rfl
    exact hbooks.concat fun _ => id
  · rw [Course.journal_record, Course.journal_adjustClient, hnumbers, List.length_map,
      List.length_range, numberAt, ← h.next hs]
    rfl

theorem register (h : Accounted s) (hs : s.client = some seat) (completion : Completion) :
    Accounted (((s.adjustClient fun c => (c.register completion).2).record
      (.allocated seat.client.nextSequence)).record
        (.registered seat.client.nextSequence completion)) := by
  have hnumbers := h.numbers_allocated hs
  have hlast : ValueTree.numbers (s.journal ++ [.allocated seat.client.nextSequence] ++
      [.registered seat.client.nextSequence completion]) =
        (List.range ((ValueTree.numbers s.journal).length + 1)).map numberAt := by
    rw [numbers_concat, hnumbers]
    exact List.append_nil _
  have hclient := Course.client_adjustClient hs fun c => (c.register completion).2
  apply of_client ((Course.client_record _).trans ((Course.client_record _).trans hclient))
  · refine inOrder_concat.mpr ⟨inOrder_concat.mpr ⟨h.inOrder, trivial⟩, s.journal, rfl⟩
  · change ValueTree.numbers (s.journal ++ _ ++ _) = _
    rw [Course.journal_record, Course.journal_record, Course.journal_adjustClient, hlast,
      List.length_map, List.length_range]
  · exact (h.books hs).register completion
  · change _ = numberAt (ValueTree.numbers (s.journal ++ _ ++ _)).length
    rw [hlast, List.length_map, List.length_range, numberAt, ← h.next hs]
    rfl

theorem cancel (h : Accounted s) (hs : s.client = some seat) (n : UInt32) :
    Accounted ((s.adjustClient fun c => (c.take n).2).record
      (.cancelled n (seat.client.take n).1.isSome)) := by
  cases htaken : (seat.client.take n).1 with
  | none =>
    refine h.take hs ?_ rfl trivial
    exact ((h.books hs).miss htaken).concat fun _ => id
  | some completion =>
    have hmem := Books.mem_of_take htaken
    refine h.take hs ?_ rfl ⟨completion, ((h.books hs).pending n completion).mp hmem⟩
    exact (h.books hs).take (fun m => eq_comm) (fun _ _ => nofun)

theorem run (h : Accounted s) (hs : s.client = some seat) {n : UInt32} {ok : Bool}
    {completion : Completion} (htaken : (seat.client.take n).1 = some completion)
    (hat : AtResult s.journal n ok) :
    Accounted ((s.adjustClient fun c => (c.take n).2).record (.ran n completion ok)) := by
  have hopen := ((h.books hs).pending n completion).mp (Books.mem_of_take htaken)
  refine h.take hs ?_ rfl ⟨hopen, hat⟩
  exact (h.books hs).take (fun m => eq_comm) (fun _ _ => nofun)

theorem miss (h : Accounted s) (hs : s.client = some seat) {n : UInt32}
    (htaken : (seat.client.take n).1 = none) :
    Accounted (s.adjustClient fun c => (c.take n).2) := by
  have hclient := Course.client_adjustClient hs fun c => (c.take n).2
  have hnext := h.next hs
  exact of_client hclient h.inOrder h.numbers ((h.books hs).miss htaken) hnext

end Accounted

theorem Course.accounted {messages : List Message} {s t : Session} (h : Course messages s t)
    (hs : Accounted s) : Accounted t := by
  induction h with
  | silent hclient hjournal =>
    exact hs.leave hjournal fun seat hseat => ⟨seat, hclient ▸ hseat, rfl, rfl, rfl⟩
  | trans _ _ ih₁ ih₂ => exact ih₂ (ih₁ hs)
  | up s => exact hs.record (fun _ => id) rfl trivial
  | down s => exact hs.record (fun _ => id) rfl trivial
  | adjust s hf =>
    exact hs.adjust fun c => ⟨(hf c).pending, (hf c).listening, (hf c).nextSequence⟩
  | allocate hseat => exact hs.allocate hseat
  | register completion hseat => exact hs.register hseat completion
  | cancel n hseat => exact hs.cancel hseat n
  | answer s n ok => exact hs.record (fun _ => id) rfl trivial
  | miss hseat htaken => exact hs.miss hseat htaken
  | run hseat htaken hat => exact hs.run hseat htaken hat
  | release s => exact hs.tend _
  | held _ _ ih => exact (ih (hs.tend _)).tend _
  | receive bytes hseat _ ih =>
    have htaken := hs.adjust (f := fun c => (c.receive bytes).2) fun c => ⟨rfl, rfl, rfl⟩
    exact ih (htaken.record (fun _ => id) rfl trivial)
  | within _ ih => exact ih hs
  | handle _ _ ih₁ ih₂ =>
    exact ih₂ ((ih₁ (hs.record (fun _ => id) rfl trivial)).record (fun _ => id) rfl trivial)

/-! ## Whole runs -/

/-- What is still open after a deed that settled its number was registered after it. -/
theorem Open.registered_after {before between : List (Deed κ)} {deed : Deed κ} {n : UInt32}
    {completion : κ} (h : Open (before ++ deed :: between) n completion) (hdeed : deed.Settles n)
    (hother : deed ≠ .registered n completion) : .registered n completion ∈ between := by
  obtain ⟨front, back, hsplit, hback⟩ := h
  rcases List.append_eq_append_iff.mp hsplit with ⟨mid, -, hmid⟩ | ⟨mid, -, hmid⟩
  · cases mid with
    | nil => exact absurd (List.cons.inj hmid).1 hother
    | cons first rest =>
      rw [(List.cons.inj hmid).2]
      simp
  · cases mid with
    | nil => exact absurd (List.cons.inj hmid).1.symm hother
    | cons first rest =>
      refine absurd hdeed (hback deed ?_)
      rw [(List.cons.inj hmid).2]
      simp

/-- A completion that ran or was cancelled had been registered. -/
theorem Deed.InOrder.open_of_settles {before : List (Deed κ)} {deed : Deed κ} {n : UInt32}
    (h : deed.InOrder before) (hdeed : deed.Settles n) (hother : ∀ x, deed ≠ .registered n x) :
    ∃ completion, Open before n completion := by
  cases deed with
  | ran m completion ok =>
    obtain rfl : m = n := hdeed
    exact ⟨completion, h.1⟩
  | cancelled m wasPending =>
    cases wasPending with
    | true =>
      obtain rfl : m = n := hdeed
      exact h
    | false => exact hdeed.elim
  | registered m completion =>
    obtain rfl : m = n := hdeed
    exact absurd rfl (hother completion)
  | _ => exact hdeed.elim

/-- As long as no number is used twice, no number is registered twice. -/
theorem InOrder.not_registered_again {before between after : List (Deed κ)} {n : UInt32} {x y : κ}
    (h : InOrder (before ++ .registered n x :: (between ++ .registered n y :: after)))
    (hnodup :
      (numbers (before ++ .registered n x :: (between ++ .registered n y :: after))).Nodup) :
    False := by
  obtain ⟨early, rfl⟩ : ∃ early, before = early ++ [Deed.allocated n] :=
    h before (.registered n x) _ rfl
  have hordered : Deed.InOrder (early ++ [.allocated n] ++ .registered n x :: between)
      (.registered n y) := h _ _ after (by simp)
  obtain ⟨late, hlate⟩ := hordered
  rcases List.eq_nil_or_concat between with rfl | ⟨rest, last, rfl⟩
  · have := (List.append_inj' hlate rfl).2
    simp at this
  · rw [List.concat_eq_append, ← List.cons_append, ← List.append_assoc] at hlate
    obtain rfl := List.singleton_inj.mp (List.append_inj' hlate rfl).2
    have htwice : numbers (early ++ [.allocated n] ++
        .registered n x :: (rest ++ [.allocated n] ++ .registered n y :: after)) =
          numbers early ++ n :: (numbers rest ++ n :: numbers after) := by
      simp [numbers, List.filterMap_cons, Deed.number?]
    rw [List.concat_eq_append, htwice] at hnodup
    have hlater := (List.nodup_append.mp hnodup).2.1
    exact (List.nodup_cons.mp hlater).1 (by simp)

/-- What is true of the completions in every run. -/
structure CompletionsKept (s : Session) : Prop where
  /-- A completion runs while a result of its number is handled and the values of the result are in
  place, and it is told whether the result was a success. -/
  ran {before after : List (Deed Completion)} {n : UInt32} {completion : Completion} {ok : Bool} :
    s.journal = before ++ .ran n completion ok :: after →
      Open before n completion ∧ AtResult before n ok
  /-- What runs a second time was registered a second time. -/
  once {before between after : List (Deed Completion)} {n : UInt32} {x y : Completion}
    {ok ok' : Bool} :
    s.journal = before ++ .ran n x ok :: (between ++ .ran n y ok' :: after) →
      .registered n y ∈ between
  /-- What was cancelled does not run. -/
  cancelled {before between after : List (Deed Completion)} {n : UInt32} {completion : Completion}
    {ok : Bool} :
    s.journal = before ++ .cancelled n true :: (between ++ .ran n completion ok :: after) →
      .registered n completion ∈ between
  /-- The client listens to results exactly while a completion is pending. -/
  listening {seat : ClientSeat} : s.client = some seat →
    (seat.client.listening = true ↔ seat.client.pending ≠ [])
  /-- Pending is what was registered and has neither run nor been cancelled since. -/
  pending {seat : ClientSeat} : s.client = some seat → ∀ n completion,
    (n, completion) ∈ seat.client.pending ↔ Open s.journal n completion
  /-- Before the numbers have gone round once, each is given out once, and zero never. -/
  fresh : (numbers s.journal).length < UInt32.size - 1 →
    0 ∉ numbers s.journal ∧ (numbers s.journal).Nodup
  /-- So long pending is what was registered and has never run and never been cancelled. -/
  exactly {seat : ClientSeat} : (numbers s.journal).length < UInt32.size - 1 →
    s.client = some seat → ∀ n completion, (n, completion) ∈ seat.client.pending ↔
      .registered n completion ∈ s.journal ∧ (∀ ok, .ran n completion ok ∉ s.journal) ∧
        .cancelled n true ∉ s.journal

namespace Accounted

variable {s : Session}

theorem fresh (h : Accounted s) (hfew : (ValueTree.numbers s.journal).length < UInt32.size - 1) :
    0 ∉ ValueTree.numbers s.journal ∧ (ValueTree.numbers s.journal).Nodup := by
  generalize hcount : (ValueTree.numbers s.journal).length = count at hfew
  rw [h.numbers, hcount]
  constructor
  · intro hzero
    obtain ⟨k, hk, he⟩ := List.mem_map.mp hzero
    have := toNat_numberAt (Nat.lt_trans (List.mem_range.mp hk) hfew)
    rw [he] at this
    simp at this
  · rw [List.Nodup, List.pairwise_map]
    refine List.pairwise_lt_range.imp_of_mem fun {i j} hi hj hij he => ?_
    have hi := toNat_numberAt (Nat.lt_trans (List.mem_range.mp hi) hfew)
    have hj := toNat_numberAt (Nat.lt_trans (List.mem_range.mp hj) hfew)
    rw [he, hj] at hi
    omega

end Accounted

/-- With distinct numbers nothing has ever settled what is open. -/
theorem Open.not_mem {journal : List (Deed κ)} {n : UInt32} {completion : κ}
    (hopen : Open journal n completion) (h : InOrder journal) (hnodup : (numbers journal).Nodup)
    {deed : Deed κ} (hdeed : deed.Settles n) (hother : ∀ x, deed ≠ .registered n x) :
    deed ∉ journal := by
  obtain ⟨before, after, rfl, hafter⟩ := hopen
  intro hmem
  rcases List.mem_append.mp hmem with hbefore | hrest
  · -- Whatever settled the number before needs a registration of its own.
    obtain ⟨front, back, rfl⟩ := List.append_of_mem hbefore
    obtain ⟨x, early, late, rfl, -⟩ :=
      (h front deed (back ++ .registered n completion :: after) (by simp)).open_of_settles
        hdeed hother
    have hsplit : early ++ .registered n x :: late ++ deed :: back ++
        .registered n completion :: after = early ++ .registered n x ::
          ((late ++ deed :: back) ++ .registered n completion :: after) := by simp
    rw [hsplit] at h hnodup
    exact h.not_registered_again hnodup
  · rcases List.mem_cons.mp hrest with he | hin
    · exact hother completion he
    · exact hafter deed hin hdeed

/-- With distinct numbers the open completions are those that have never been settled. -/
theorem open_iff {journal : List (Deed κ)} (h : InOrder journal) (hnodup : (numbers journal).Nodup)
    {n : UInt32} {completion : κ} :
    Open journal n completion ↔ .registered n completion ∈ journal ∧
      (∀ ok, .ran n completion ok ∉ journal) ∧ .cancelled n true ∉ journal := by
  constructor
  · intro hopen
    have hregistered : .registered n completion ∈ journal := by
      obtain ⟨before, after, rfl, -⟩ := hopen
      simp
    exact ⟨hregistered, fun ok => hopen.not_mem h hnodup rfl nofun,
      hopen.not_mem h hnodup rfl nofun⟩
  · rintro ⟨hregistered, hran, hcancelled⟩
    obtain ⟨before, after, rfl⟩ := List.append_of_mem hregistered
    refine ⟨before, after, rfl, fun deed hdeed hsettles => ?_⟩
    obtain ⟨front, back, rfl⟩ := List.append_of_mem hdeed
    cases deed with
    | registered m x =>
      obtain rfl : m = n := hsettles
      exact h.not_registered_again hnodup
    | ran m x ok =>
      obtain rfl : m = n := hsettles
      have hopen : Open (before ++ .registered m completion :: front) m x :=
        (h _ (.ran m x ok) back (by simp)).1
      by_cases hx : x = completion
      · subst hx
        exact hran ok (by simp)
      · have hagain := hopen.registered_after rfl (by simpa using Ne.symm hx)
        obtain ⟨early, late, rfl⟩ := List.append_of_mem hagain
        rw [List.append_assoc, List.cons_append] at h hnodup
        exact h.not_registered_again hnodup
    | cancelled m wasPending =>
      cases wasPending with
      | true =>
        obtain rfl : m = n := hsettles
        exact hcancelled (by simp)
      | false => exact hsettles
    | _ => exact hsettles

theorem Accounted.start (files : FileTree) (config : ClientConfig) :
    Accounted ((Session.fresh files).seatClient config) := by
  have hjournal := Session.journal_start files config
  apply Accounted.of_client (Session.client_seatClient (.fresh files) config) <;> rw [hjournal]
  · exact fun before deed after hsplit => absurd hsplit (by simp)
  · rfl
  · exact .start config
  · rfl

/-- Results reach their completions, each once, in every run of a session with a client. -/
theorem Session.completionsKept (files : FileTree) (config : ClientConfig)
    (commands : List Command) :
    CompletionsKept (((fresh files).seatClient config).steps commands).2 := by
  have h := (course_steps _ commands).accounted (.start files config)
  refine
    { ran := fun hsplit => h.inOrder _ _ _ hsplit
      once := fun {before between after n x y ok ok'} hsplit => ?_
      cancelled := fun {before between after n x ok} hsplit => ?_
      listening := fun {seat} hseat => ?_
      pending := fun hseat => (h.books hseat).pending
      fresh := h.fresh
      exactly := fun {seat} hfew hseat n completion => ?_ }
  · have hopen := (h.inOrder (before ++ .ran n x ok :: between) (.ran n y ok') after (by simpa)).1
    exact hopen.registered_after rfl nofun
  · have hopen := (h.inOrder (before ++ .cancelled n true :: between) (.ran n x ok) after
      (by simpa)).1
    exact hopen.registered_after rfl nofun
  · rw [(h.books hseat).listening]
    cases seat.client.pending <;> simp
  · rw [(h.books hseat).pending, open_iff h.inOrder (h.fresh hfew).2]

end ValueTree
