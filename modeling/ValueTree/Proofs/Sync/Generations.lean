import Mathlib.Computability.Language
import ValueTree.Sync.Socket

/-!
# Generations

A socket and the tasks that work for it. An attempt under way and a reader of a connection each know
the generation they belong to, and come to their end at any time, also long after a close. Between
two closes there is one of them at most, and one that is older than the last close does nothing.
-/

open scoped Computability

namespace ValueTree

/-! ## Runs -/

/-- A socket with the generations of its attempts and readers, and what the sink was told of the
connection since the last close. -/
structure Crew where
  socket : Socket := {}
  attempts : List Nat := []
  readers : List Nat := []
  told : List LinkEvent := []

namespace Crew

inductive Move
  | connect
  | close
  /-- An attempt succeeds. -/
  | attached (generation : Nat)
  | failed (generation : Nat)
  /-- A reader comes to the end of its connection. -/
  | lost (generation : Nat)

/-- A reader begins with the connection that it reads, if the sink is told of one. -/
def step (c : Crew) : Move → Crew
  | .connect =>
    match c.socket.begin? with
    | none => c
    | some (generation, socket) => { c with socket, attempts := generation :: c.attempts }
  | .close => { c with socket := c.socket.close, told := [] }
  | .attached generation =>
    if generation ∈ c.attempts then
      let (event?, socket) := c.socket.attach generation
      { socket
        attempts := c.attempts.erase generation
        readers := if event?.isSome then generation :: c.readers else c.readers
        told := c.told ++ event?.toList }
    else c
  | .failed generation =>
    if generation ∈ c.attempts then
      let (event?, socket) := c.socket.failed generation
      { c with socket, attempts := c.attempts.erase generation, told := c.told ++ event?.toList }
    else c
  | .lost generation =>
    if generation ∈ c.readers then
      let (event?, socket) := c.socket.lost generation
      { c with socket, readers := c.readers.erase generation, told := c.told ++ event?.toList }
    else c

def after (c : Crew) (moves : List Move) : Crew := moves.foldl step c

variable {c : Crew} {generation : Nat}

/-! ## Old tasks -/

/-- Nothing that belongs to another generation tells anything or changes the socket. -/
theorem step_of_older (h : c.socket.generation ≠ generation) {move : Move}
    (hmove : move = .attached generation ∨ move = .failed generation ∨ move = .lost generation) :
    (c.step move).socket = c.socket ∧ (c.step move).told = c.told := by
  rcases hmove with rfl | rfl | rfl
  all_goals
    simp only [step]
    split <;> simp [Socket.attach, Socket.failed, Socket.lost, h]

theorem generation_step (c : Crew) (move : Move) :
    c.socket.generation ≤ (c.step move).socket.generation := by
  cases move with
  | connect =>
    have hsame : (c.step .connect).socket.generation = c.socket.generation := by
      unfold step Socket.begin?
      cases c.socket.connected || c.socket.connecting <;> rfl
    exact Nat.le_of_eq hsame.symm
  | close => exact Nat.le_succ _
  | attached generation | failed generation | lost generation =>
    simp only [step, Socket.attach, Socket.failed, Socket.lost]
    split
    · split <;> exact Nat.le_refl _
    · exact Nat.le_refl _

theorem keeps {P : Crew → Prop} (hstep : ∀ c move, P c → P (c.step move)) (hc : P c)
    (moves : List Move) : P (c.after moves) := by
  induction moves generalizing c with
  | nil => exact hc
  | cons move rest ih => exact ih (hstep c move hc)

/-! ## What the sink is told -/

/-- An attempt fails, or it succeeds and the connection is lost later on; any number of times. -/
def rounds : Language LinkEvent := ({[.disconnected]} + {[.connected, .disconnected]})∗

theorem append_mem_rounds {told round : List LinkEvent} (h : told ∈ rounds)
    (hround : round = [.disconnected] ∨ round = [.connected, .disconnected]) :
    told ++ round ∈ rounds := by
  obtain ⟨parts, rfl, hparts⟩ := Language.mem_kstar.mp h
  refine Language.mem_kstar.mpr ⟨parts ++ [round], by simp, fun part hpart => ?_⟩
  rcases List.mem_append.mp hpart with hold | hnew
  · exact hparts part hold
  · rw [List.mem_singleton.mp hnew]
    exact hround

/-! ## The invariant -/

structure Sound (c : Crew) : Prop where
  apart : ¬(c.socket.connected ∧ c.socket.connecting)
  attempts : c.attempts.count c.socket.generation = if c.socket.connecting then 1 else 0
  readers : c.readers.count c.socket.generation = if c.socket.connected then 1 else 0
  begun : ∀ generation ∈ c.attempts, generation ≤ c.socket.generation
  reading : ∀ generation ∈ c.readers, generation ≤ c.socket.generation
  word : ∃ told ∈ rounds, c.told = told ++ if c.socket.connected then [.connected] else []
  last : c.told.getLast? = some .connected ↔ c.socket.connected

namespace Sound

theorem connecting (h : c.Sound) (hmem : c.socket.generation ∈ c.attempts) :
    c.socket.connecting = true ∧ c.socket.connected = false := by
  have hcount := List.count_pos_iff.mpr hmem
  rw [h.attempts] at hcount
  have hconnecting : c.socket.connecting = true := by
    by_contra hnot
    simp [hnot] at hcount
  exact ⟨hconnecting, by simpa [hconnecting] using h.apart⟩

theorem connected (h : c.Sound) (hmem : c.socket.generation ∈ c.readers) :
    c.socket.connected = true ∧ c.socket.connecting = false := by
  have hcount := List.count_pos_iff.mpr hmem
  rw [h.readers] at hcount
  have hconnected : c.socket.connected = true := by
    by_contra hnot
    simp [hnot] at hcount
  exact ⟨hconnected, by simpa [hconnected] using h.apart⟩

/-- Tasks of another generation may be over, and nothing else. -/
theorem forget (h : c.Sound) {d : Crew} (hsocket : d.socket = c.socket) (htold : d.told = c.told)
    (hattempts : d.attempts.count c.socket.generation = c.attempts.count c.socket.generation)
    (hreaders : d.readers.count c.socket.generation = c.readers.count c.socket.generation)
    (hfewer : d.attempts ⊆ c.attempts ∧ d.readers ⊆ c.readers) : d.Sound where
  apart := by simpa only [hsocket] using h.apart
  attempts := by simpa only [hsocket, hattempts] using h.attempts
  readers := by simpa only [hsocket, hreaders] using h.readers
  begun generation hmem := hsocket ▸ h.begun generation (hfewer.1 hmem)
  reading generation hmem := hsocket ▸ h.reading generation (hfewer.2 hmem)
  word := by simpa only [hsocket, htold] using h.word
  last := by simpa only [hsocket, htold] using h.last

theorem older (h : c.Sound) (hold : c.socket.generation ≠ generation) {move : Move}
    (hmove : move = .attached generation ∨ move = .failed generation ∨ move = .lost generation) :
    (c.step move).Sound := by
  obtain ⟨hsocket, htold⟩ := step_of_older hold hmove
  refine h.forget hsocket htold ?_ ?_ ?_
  all_goals
    rcases hmove with rfl | rfl | rfl
    all_goals
      simp only [step]
      split <;> simp [Socket.attach, hold, List.count_erase_of_ne, List.erase_subset]

theorem connect (h : c.Sound) : (c.step .connect).Sound := by
  by_cases hbusy : c.socket.connected || c.socket.connecting
  · have hstep : c.step .connect = c := by simp only [step, Socket.begin?, hbusy, if_true]
    rwa [hstep]
  have hfree : c.socket.connected = false ∧ c.socket.connecting = false := by simpa using hbusy
  have hstep : c.step .connect = { c with
      socket := { c.socket with connecting := true }
      attempts := c.socket.generation :: c.attempts } := by
    simp [step, Socket.begin?, hfree]
  have hattempts := h.attempts
  rw [hfree.2] at hattempts
  rw [hstep]
  constructor
  · simp [hfree]
  · simpa using hattempts
  · exact h.readers
  · simpa using h.begun
  · exact h.reading
  · exact h.word
  · exact h.last

theorem close (h : c.Sound) : (c.step .close).Sound := by
  -- Every task belongs to a generation that there was before.
  have hnone {tasks : List Nat} (htasks : ∀ generation ∈ tasks, generation ≤ c.socket.generation) :
      tasks.count (c.socket.generation + 1) = 0 :=
    List.count_eq_zero.mpr fun hmem => by have := htasks _ hmem; omega
  constructor
  · simp [step, Socket.close]
  · exact hnone h.begun
  · exact hnone h.reading
  · exact fun generation hmem => Nat.le_succ_of_le (h.begun generation hmem)
  · exact fun generation hmem => Nat.le_succ_of_le (h.reading generation hmem)
  · exact ⟨[], Language.nil_mem_kstar _, rfl⟩
  · simp [step, Socket.close]

theorem attached (h : c.Sound) (generation : Nat) : (c.step (.attached generation)).Sound := by
  by_cases hold : c.socket.generation = generation
  case neg => exact h.older hold (Or.inl rfl)
  subst hold
  by_cases hmem : c.socket.generation ∈ c.attempts
  case neg => simpa only [step, hmem, if_false] using h
  obtain ⟨hconnecting, hdown⟩ := h.connecting hmem
  have hstep : c.step (.attached c.socket.generation) =
      { socket := { c.socket with connected := true, connecting := false }
        attempts := c.attempts.erase c.socket.generation
        readers := c.socket.generation :: c.readers
        told := c.told ++ [.connected] } := by
    simp [step, hmem, Socket.attach]
  have hattempts := h.attempts
  have hreaders := h.readers
  obtain ⟨told, htold, hword⟩ := h.word
  rw [hconnecting] at hattempts
  rw [hdown] at hreaders hword
  rw [hstep]
  constructor
  · simp
  · simp [hattempts]
  · simpa using hreaders
  · exact fun generation hmem => h.begun generation (List.mem_of_mem_erase hmem)
  · simpa using h.reading
  · exact ⟨told, htold, by simpa using hword⟩
  · simp

theorem failed (h : c.Sound) (generation : Nat) : (c.step (.failed generation)).Sound := by
  by_cases hold : c.socket.generation = generation
  case neg => exact h.older hold (Or.inr (Or.inl rfl))
  subst hold
  by_cases hmem : c.socket.generation ∈ c.attempts
  case neg => simpa only [step, hmem, if_false] using h
  obtain ⟨hconnecting, hdown⟩ := h.connecting hmem
  have hstep : c.step (.failed c.socket.generation) = { c with
      socket := { c.socket with connecting := false }
      attempts := c.attempts.erase c.socket.generation
      told := c.told ++ [.disconnected] } := by
    simp [step, hmem, Socket.failed]
  have hattempts := h.attempts
  obtain ⟨told, htold, hword⟩ := h.word
  rw [hconnecting] at hattempts
  rw [hdown] at hword
  rw [hstep]
  constructor
  · simp
  · simp [hattempts]
  · exact h.readers
  · exact fun generation hmem => h.begun generation (List.mem_of_mem_erase hmem)
  · exact h.reading
  · exact ⟨told ++ [.disconnected], append_mem_rounds htold (Or.inl rfl), by simp [hword, hdown]⟩
  · simp [hdown]

theorem lost (h : c.Sound) (generation : Nat) : (c.step (.lost generation)).Sound := by
  by_cases hold : c.socket.generation = generation
  case neg => exact h.older hold (Or.inr (Or.inr rfl))
  subst hold
  by_cases hmem : c.socket.generation ∈ c.readers
  case neg => simpa only [step, hmem, if_false] using h
  obtain ⟨hup, hidle⟩ := h.connected hmem
  have hstep : c.step (.lost c.socket.generation) = { c with
      socket := { c.socket with connected := false }
      readers := c.readers.erase c.socket.generation
      told := c.told ++ [.disconnected] } := by
    simp [step, hmem, Socket.lost, hup]
  have hreaders := h.readers
  obtain ⟨told, htold, hword⟩ := h.word
  rw [hup] at hreaders hword
  rw [hstep]
  constructor
  · simp
  · exact h.attempts
  · simp [hreaders]
  · exact h.begun
  · exact fun generation hmem => h.reading generation (List.mem_of_mem_erase hmem)
  · exact ⟨told ++ [.connected, .disconnected], append_mem_rounds htold (Or.inr rfl), by
      simp [hword]⟩
  · simp

theorem step (h : c.Sound) (move : Move) : (c.step move).Sound := by
  cases move with
  | connect => exact h.connect
  | close => exact h.close
  | attached generation => exact h.attached generation
  | failed generation => exact h.failed generation
  | lost generation => exact h.lost generation

end Sound

theorem sound_first : Crew.Sound {} where
  apart := by simp
  attempts := rfl
  readers := rfl
  begun := nofun
  reading := nofun
  word := ⟨[], Language.nil_mem_kstar _, rfl⟩
  last := by simp

/-! ## The result -/

structure GenerationsKept (c : Crew) : Prop where
  apart : ¬(c.socket.connected ∧ c.socket.connecting)
  attempts : c.attempts.count c.socket.generation = if c.socket.connecting then 1 else 0
  readers : c.readers.count c.socket.generation = if c.socket.connected then 1 else 0
  word : c.told ∈ ({[.disconnected]} + {[.connected, .disconnected]})∗ *
    (1 + {[.connected]} : Language LinkEvent)
  last : c.told.getLast? = some .connected ↔ c.socket.connected
  /-- An attempt or a reader that was there before a close does nothing after it. -/
  older {generation : Nat} {moves : List Move} {move : Move} :
    generation ∈ c.attempts ∨ generation ∈ c.readers →
      move = .attached generation ∨ move = .failed generation ∨ move = .lost generation →
        let later := (c.step .close).after moves
        (later.step move).socket = later.socket ∧ (later.step move).told = later.told

theorem generationsKept (moves : List Move) : GenerationsKept (after {} moves) := by
  have hsound : (after {} moves).Sound := keeps (fun _ move h => h.step move) sound_first moves
  generalize after {} moves = c at hsound
  constructor
  case apart => exact hsound.apart
  case attempts => exact hsound.attempts
  case readers => exact hsound.readers
  case word =>
    obtain ⟨told, htold, hword⟩ := hsound.word
    rw [hword]
    refine Language.append_mem_mul htold ?_
    cases c.socket.connected with
    | false => exact Or.inl rfl
    | true => exact Or.inr rfl
  case last => exact hsound.last
  case older =>
    intro generation more move hthere hmove
    -- The close raised the generation, and no move lowers it.
    have hbefore : generation ≤ c.socket.generation :=
      hthere.elim (hsound.begun generation) (hsound.reading generation)
    have hsince : c.socket.generation + 1 ≤ ((c.step .close).after more).socket.generation :=
      keeps (P := fun d => c.socket.generation + 1 ≤ d.socket.generation)
        (fun d move hd => hd.trans (d.generation_step move)) (Nat.le_refl _) more
    exact step_of_older (by omega) hmove

end Crew

end ValueTree
