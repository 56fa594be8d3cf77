import ValueTree.Sync.Wire

/-!
# The outbox over a run

An outbox and its agenda are moved in any order: messages are pushed and cleared, the connection
comes and goes, tasks are run. A ledger keeps what became of every message that was pushed. No
message is stuck, none is sent twice, and none overtakes another. Only a message that is too long
for a frame is taken off the outbox and not handed over.
-/

namespace ValueTree

/-! ## Messages in frames -/

/-- A frame can hold the message. -/
def Message.Fits (m : Message) : Prop := m.encode.length < UInt32.size

instance (m : Message) : Decidable m.Fits := inferInstanceAs (Decidable (_ < _))

theorem Message.frame?_of_fits {m : Message} (h : m.Fits) (f : Framing) :
    m.frame? f = .ok (m.framed f) :=
  if_pos h

theorem Message.frame?_of_not_fits {m : Message} (h : ¬m.Fits) (f : Framing) :
    m.frame? f = .error (.oversized m.encode.length (UInt32.size - 1)) :=
  if_neg h

theorem Message.filter_fits {messages : List Message} (h : ∀ m ∈ messages, m.Fits) :
    messages.filter (·.Fits) = messages :=
  List.filter_eq_self.mpr fun m hm => decide_eq_true (h m hm)

namespace Link

variable {m : Message} (l : Link) (f : Framing)

theorem sendMessage_of_fits (h : m.Fits) : l.sendMessage f m = (l.send (m.framed f)).2 := by
  rw [sendMessage, Message.frame?_of_fits h]

theorem sendMessage_of_not_fits (h : ¬m.Fits) : l.sendMessage f m = l := by
  rw [sendMessage, Message.frame?_of_not_fits h]

@[simp] theorem connected_send (frame : List UInt8) : (l.send frame).2.connected = l.connected := by
  unfold send
  split <;> rfl

@[simp] theorem attempts_send (frame : List UInt8) : (l.send frame).2.attempts = l.attempts := by
  unfold send
  split <;> rfl

@[simp] theorem connected_sendMessage (m : Message) :
    (l.sendMessage f m).connected = l.connected := by
  unfold sendMessage
  split <;> simp

@[simp] theorem attempts_sendMessage (m : Message) :
    (l.sendMessage f m).attempts = l.attempts := by
  unfold sendMessage
  split <;> simp

end Link

namespace Wire

variable {τ : Type}

/-! ## A wire on its own -/

/-- Nobody listens to the wire. -/
instance : Station τ (StateM (Wire τ)) where
  wire := get
  adjust f := modify f
  announce _ := pure ()
  notify _ := pure ()

/-- Does a job. What the tasks of others do is no part of it. -/
def work (job : Job τ) : StateM (Wire τ) Unit := Station.work (fun _ => pure ()) job

def runNext (w : Wire τ) : Wire τ :=
  match w.agenda.next? with
  | none => w
  | some (job, agenda) => ((work job).run { w with agenda }).2

inductive Move (τ : Type)
  | push (message : Message)
  | setConnected (connected : Bool)
  | clear
  /-- The task at the front is run. -/
  | run
  /-- Somebody else posts a task. -/
  | post (task : τ)
  /-- The link becomes another by itself. -/
  | relink (link : Link)

namespace Move

end Move

def move (w : Wire τ) : Move τ → Wire τ
  | .push message => w.push message
  | .setConnected connected => w.setConnected connected
  | .clear => w.clear
  | .run => w.runNext
  | .post task => w.post task
  | .relink link => { w with link }

/-- The message that a move takes off the outbox to send it. -/
def taken? (w : Wire τ) : Move τ → Option Message
  | .run =>
    match w.agenda.tasks with
    | .drain :: _ => w.outbox.take.1
    | _ => none
  | _ => none

/-- The message that a move hands to the link. -/
def handed? (w : Wire τ) (m : Move τ) : Option Message := (w.taken? m).filter (·.Fits)

/-- How many drains there are among some jobs. -/
def drains (jobs : List (Job τ)) : Nat := jobs.countP fun job => job matches .drain

@[simp] theorem drains_nil : drains ([] : List (Job τ)) = 0 := rfl

@[simp] theorem drains_cons_drain (jobs : List (Job τ)) :
    drains (.drain :: jobs) = drains jobs + 1 :=
  List.countP_cons_of_pos rfl

@[simp] theorem drains_cons_own (task : τ) (jobs : List (Job τ)) :
    drains (.own task :: jobs) = drains jobs :=
  List.countP_cons_of_neg nofun

@[simp] theorem drains_append (jobs more : List (Job τ)) :
    drains (jobs ++ more) = drains jobs + drains more :=
  List.countP_append

variable {w : Wire τ}

/-! ## One task -/

/-- Everything that running the task at the front may come to, with the message that it takes off
the outbox. -/
inductive Ran (w : Wire τ) : Option Message → Wire τ → Prop
  | idle : w.agenda.tasks = [] → Ran w none w
  | own {task : τ} {rest : List (Job τ)} : w.agenda.tasks = .own task :: rest →
    Ran w none { w with agenda := { w.agenda with tasks := rest } }
  /-- A drain that finds nothing to send. -/
  | last {rest : List (Job τ)} : w.agenda.tasks = .drain :: rest →
    w.outbox.connected = false ∨ w.outbox.messages = [] →
      Ran w none { w with
        agenda := { w.agenda with tasks := rest }
        outbox := { w.outbox with draining := false } }
  | sent {rest : List (Job τ)} {message : Message} {more : List Message} :
    w.agenda.tasks = .drain :: rest → w.outbox.connected = true →
      w.outbox.messages = message :: more →
        Ran w (some message) { w with
          agenda := { w.agenda with tasks := rest ++ [.drain] }
          outbox := { w.outbox with messages := more }
          link := w.link.sendMessage w.framing message }

/-- Only timers bring attempts to connect. -/
theorem ran_runNext (hcalm : .retry ∉ w.agenda.tasks) : Ran w (w.taken? .run) w.runNext := by
  obtain ⟨⟨tasks, timers, armed, nextTimer⟩, link, ⟨messages, connected, draining⟩, r, f⟩ := w
  cases tasks with
  | nil => exact .idle rfl
  | cons job rest =>
    cases job with
    | drain =>
      cases connected with
      | false => exact .last rfl (Or.inl rfl)
      | true =>
        cases messages with
        | nil => exact .last rfl (Or.inr rfl)
        | cons message more => exact .sent rfl rfl rfl
    | own task => exact .own rfl
    | retry => exact absurd List.mem_cons_self hcalm

/-- As many drains as the flag says, and the flag is up while there is something to send. -/
structure Awake (w : Wire τ) : Prop where
  flag : drains w.agenda.tasks = if w.outbox.draining then 1 else 0
  wanted : w.outbox.wantsDrain = false
  calm : .retry ∉ w.agenda.tasks

namespace Awake

/-- A drain that is wanted is put on the agenda. -/
theorem scheduleDrain (hflag : drains w.agenda.tasks = if w.outbox.draining then 1 else 0)
    (hcalm : .retry ∉ w.agenda.tasks) : w.scheduleDrain.Awake := by
  unfold Wire.scheduleDrain
  split
  · rename_i hwanted
    have hrest : w.outbox.draining = false := by
      simp only [Outbox.wantsDrain, Bool.and_eq_true, Bool.not_eq_true'] at hwanted
      exact hwanted.1.1
    refine ⟨?_, rfl, by simpa [Agenda.post] using hcalm⟩
    simp [Agenda.post, hflag, hrest]
  · rename_i hwanted
    exact ⟨hflag, Bool.eq_false_iff.mpr hwanted, hcalm⟩

theorem push (h : w.Awake) (message : Message) : (w.push message).Awake := by
  unfold Wire.push
  split
  · exact scheduleDrain h.flag h.calm
  · -- A drain that the messages before did not want is not wanted by one more.
    rename_i hmessages
    refine ⟨h.flag, ?_, h.calm⟩
    have hwanted := h.wanted
    simp only [Outbox.wantsDrain, hmessages] at hwanted
    simpa [Outbox.wantsDrain, Outbox.push] using hwanted

theorem setConnected (h : w.Awake) (connected : Bool) : (w.setConnected connected).Awake := by
  unfold Wire.setConnected
  cases connected with
  | true => exact scheduleDrain h.flag h.calm
  | false => exact ⟨h.flag, by simp [Outbox.wantsDrain], h.calm⟩

theorem clear (h : w.Awake) : w.clear.Awake :=
  ⟨h.flag, by simp [Wire.clear, Outbox.clear, Outbox.wantsDrain], h.calm⟩

theorem post (h : w.Awake) (task : τ) : (w.post task).Awake :=
  ⟨(drains_append _ _).trans h.flag, h.wanted, by simpa [Wire.post, Agenda.post] using h.calm⟩

/-- With a drain on the agenda the flag is up, and there is no other one. -/
theorem alone (h : w.Awake) {rest : List (Job τ)} (htasks : w.agenda.tasks = .drain :: rest) :
    w.outbox.draining = true ∧ drains rest = 0 := by
  have hflag := h.flag
  rw [htasks, drains_cons_drain] at hflag
  cases hdraining : w.outbox.draining with
  | true => exact ⟨rfl, by simpa [hdraining] using hflag⟩
  | false => simp [hdraining] at hflag

theorem runNext (h : w.Awake) : w.runNext.Awake := by
  have hran := ran_runNext h.calm
  generalize w.taken? .run = taken?, w.runNext = next at hran
  have hcalm := h.calm
  cases hran with
  | idle => exact h
  | own htasks =>
    rw [htasks, List.mem_cons, not_or] at hcalm
    have hflag := h.flag
    rw [htasks, drains_cons_own] at hflag
    exact ⟨hflag, h.wanted, hcalm.2⟩
  | last htasks hnothing =>
    rw [htasks, List.mem_cons, not_or] at hcalm
    refine ⟨by simpa using (h.alone htasks).2, ?_, hcalm.2⟩
    rcases hnothing with hdown | hempty
    · simp [Outbox.wantsDrain, hdown]
    · simp [Outbox.wantsDrain, hempty]
  | sent htasks hconnected hmessages =>
    rw [htasks, List.mem_cons, not_or] at hcalm
    obtain ⟨hdraining, hnone⟩ := h.alone htasks
    refine ⟨by simp [hnone, hdraining], by simp [Outbox.wantsDrain, hdraining], ?_⟩
    simpa using hcalm.2

theorem move (h : w.Awake) (m : Move τ) : (w.move m).Awake := by
  cases m with
  | push message => exact h.push message
  | setConnected connected => exact h.setConnected connected
  | clear => exact h.clear
  | run => exact h.runNext
  | post task => exact h.post task
  | relink link => exact ⟨h.flag, h.wanted, h.calm⟩

theorem drains_eq_one (h : w.Awake) (hconnected : w.outbox.connected = true)
    (hmessages : w.outbox.messages ≠ []) : drains w.agenda.tasks = 1 := by
  have hwanted := h.wanted
  have hdraining : w.outbox.draining = true := by
    simpa [Outbox.wantsDrain, hconnected, hmessages] using hwanted
  rw [h.flag, if_pos hdraining]

end Awake

@[simp] theorem messages_scheduleDrain : w.scheduleDrain.outbox.messages = w.outbox.messages := by
  unfold scheduleDrain
  split <;> rfl

theorem messages_push (message : Message) :
    (w.push message).outbox.messages = w.outbox.messages ++ [message] := by
  unfold push
  split
  · exact messages_scheduleDrain
  · rfl

theorem messages_pushAll (messages : List Message) :
    (messages.foldl push w).outbox.messages = w.outbox.messages ++ messages := by
  induction messages generalizing w with
  | nil => exact (List.append_nil _).symm
  | cons message rest ih =>
    rw [List.foldl_cons, ih, messages_push, List.append_assoc, List.singleton_append]

theorem messages_setConnected (connected : Bool) :
    (w.setConnected connected).outbox.messages = w.outbox.messages := by
  cases connected with
  | true => exact messages_scheduleDrain
  | false => rfl

/-! ## The connection -/

@[simp] theorem connected_scheduleDrain :
    w.scheduleDrain.outbox.connected = w.outbox.connected := by
  unfold scheduleDrain
  split <;> rfl

@[simp] theorem link_scheduleDrain : w.scheduleDrain.link = w.link := by
  unfold scheduleDrain
  split <;> rfl

theorem connected_push (message : Message) :
    (w.push message).outbox.connected = w.outbox.connected := by
  unfold push
  split
  · exact connected_scheduleDrain
  · rfl

theorem link_push (message : Message) : (w.push message).link = w.link := by
  unfold push
  split
  · exact link_scheduleDrain
  · rfl

theorem connected_setConnected (connected : Bool) :
    (w.setConnected connected).outbox.connected = connected := by
  cases connected with
  | true => exact connected_scheduleDrain
  | false => rfl

theorem link_setConnected (connected : Bool) : (w.setConnected connected).link = w.link := by
  cases connected with
  | true => exact link_scheduleDrain
  | false => rfl

theorem connected_pushAll (messages : List Message) :
    (messages.foldl push w).outbox.connected = w.outbox.connected := by
  induction messages generalizing w with
  | nil => rfl
  | cons message rest ih => rw [List.foldl_cons, ih, connected_push]

theorem link_pushAll (messages : List Message) : (messages.foldl push w).link = w.link := by
  induction messages generalizing w with
  | nil => rfl
  | cons message rest ih => rw [List.foldl_cons, ih, link_push]

/-! ## The timers -/

@[simp] theorem timers_scheduleDrain : w.scheduleDrain.agenda.timers = w.agenda.timers := by
  unfold scheduleDrain
  split <;> rfl

theorem timers_push (message : Message) : (w.push message).agenda.timers = w.agenda.timers := by
  unfold push
  split
  · exact timers_scheduleDrain
  · rfl

theorem timers_setConnected (connected : Bool) :
    (w.setConnected connected).agenda.timers = w.agenda.timers := by
  cases connected with
  | true => exact timers_scheduleDrain
  | false => rfl

theorem timers_drain : w.drain.agenda.timers = w.agenda.timers := by
  unfold drain
  split <;> rfl

theorem timers_pushAll (messages : List Message) :
    (messages.foldl push w).agenda.timers = w.agenda.timers := by
  induction messages generalizing w with
  | nil => rfl
  | cons message rest ih => rw [List.foldl_cons, ih, timers_push]

/-! ## Several messages -/

theorem Awake.pushAll (h : w.Awake) (messages : List Message) :
    (messages.foldl Wire.push w).Awake := by
  induction messages generalizing w with
  | nil => exact h
  | cons message rest ih => exact ih (h.push message)

/-! ## Running until idle -/

theorem runUntilIdle_nil (fuel : Nat) (h : w.agenda.tasks = []) :
    ((Station.runUntilIdle work fuel : StateM (Wire τ) Nat).run w).2 = w := by
  obtain ⟨⟨tasks, timers, armed, nextTimer⟩, link, outbox, r, f⟩ := w
  obtain rfl : tasks = [] := h
  cases fuel <;> rfl

end Wire

/-! ## The ledger -/

/-- What became of a message that was pushed. -/
inductive Fate
  | waiting
  /-- A drain took it off the outbox to send it. -/
  | taken
  /-- A clearing took it. -/
  | dropped
deriving DecidableEq

/-- A wire with the messages that were pushed to it, in order, and those that it handed to the
link. -/
structure Ledger (τ : Type) where
  wire : Wire τ
  fates : List (Message × Fate) := []
  handed : List Message := []

namespace Ledger

variable {τ : Type}

/-- The message that has waited longest is taken off. -/
def takeOff : List (Message × Fate) → List (Message × Fate)
  | [] => []
  | (message, .waiting) :: rest => (message, .taken) :: rest
  | entry :: rest => entry :: takeOff rest

def drop (entry : Message × Fate) : Message × Fate :=
  if entry.2 = .waiting then (entry.1, .dropped) else entry

def settle (fates : List (Message × Fate)) (taken? : Option Message) : Wire.Move τ →
    List (Message × Fate)
  | .push message => fates ++ [(message, .waiting)]
  | .clear => fates.map drop
  | _ => if taken?.isSome then takeOff fates else fates

def step (l : Ledger τ) (m : Wire.Move τ) : Ledger τ where
  wire := l.wire.move m
  fates := settle l.fates (l.wire.taken? m) m
  handed := l.handed ++ (l.wire.handed? m).toList

def after (l : Ledger τ) (moves : List (Wire.Move τ)) : Ledger τ := moves.foldl step l

/-- What is settled comes before what waits, and what waits is in the outbox. -/
structure Balanced (l : Ledger τ) : Prop where
  awake : l.wire.Awake
  fates : ∃ settled, l.fates = settled ++ l.wire.outbox.messages.map (·, .waiting) ∧
    (∀ entry ∈ settled, entry.2 ≠ .waiting) ∧
      l.handed = ((settled.filter (·.2 = .taken)).map (·.1)).filter (·.Fits)

variable {l : Ledger τ} {settled : List (Message × Fate)}

theorem takeOff_waiting (h : ∀ entry ∈ settled, entry.2 ≠ .waiting) (message : Message)
    (rest : List (Message × Fate)) :
    takeOff (settled ++ (message, .waiting) :: rest) = settled ++ (message, .taken) :: rest := by
  induction settled with
  | nil => rfl
  | cons entry settled ih =>
    obtain ⟨first, fate⟩ := entry
    have hfate : fate ≠ .waiting := h _ List.mem_cons_self
    have hrest := ih fun e he => h e (List.mem_cons_of_mem _ he)
    cases fate with
    | waiting => exact absurd rfl hfate
    | taken => simp [takeOff, hrest]
    | dropped => simp [takeOff, hrest]

theorem map_drop_settled (h : ∀ entry ∈ settled, entry.2 ≠ .waiting) :
    settled.map drop = settled := by
  have hsame : settled.map drop = settled.map id :=
    List.map_congr_left fun entry he => if_neg (h entry he)
  rw [hsame, List.map_id]

namespace Balanced

theorem push (h : l.Balanced) (message : Message) : (l.step (.push message)).Balanced := by
  obtain ⟨settled, hfates, hsettled, hhanded⟩ := h.fates
  refine ⟨h.awake.push message, settled, ?_, hsettled, ?_⟩
  · simp [step, settle, hfates, Wire.move, Wire.messages_push]
  · simpa [step, Wire.handed?, Wire.taken?] using hhanded

/-- A move that leaves the messages where they are. -/
theorem still {m : Wire.Move τ} (h : l.Balanced)
    (hmessages : (l.wire.move m).outbox.messages = l.wire.outbox.messages)
    (hfates : (l.step m).fates = l.fates) (hhanded : (l.step m).handed = l.handed) :
    (l.step m).Balanced := by
  obtain ⟨settled, hold, hsettled, hgone⟩ := h.fates
  refine ⟨h.awake.move m, settled, ?_, hsettled, hhanded.trans hgone⟩
  rw [hfates, hold]
  exact congrArg (settled ++ List.map _ ·) hmessages.symm

theorem clear (h : l.Balanced) : (l.step .clear).Balanced := by
  obtain ⟨settled, hfates, hsettled, hhanded⟩ := h.fates
  refine ⟨h.awake.clear, settled ++ l.wire.outbox.messages.map (·, .dropped), ?_, ?_, ?_⟩
  · simp [step, settle, hfates, Wire.move, Wire.clear, Outbox.clear, map_drop_settled hsettled,
      Function.comp_def, drop]
  · intro entry hentry
    rcases List.mem_append.mp hentry with hold | hnew
    · exact hsettled entry hold
    · obtain ⟨message, -, rfl⟩ := List.mem_map.mp hnew
      simp
  · simp [step, Wire.handed?, Wire.taken?, hhanded, List.filter_map, Function.comp_def]

theorem run (h : l.Balanced) : (l.step .run).Balanced := by
  obtain ⟨settled, hfates, hsettled, hhanded⟩ := h.fates
  have hawake := h.awake.runNext
  have hran := Wire.ran_runNext h.awake.calm
  simp only [step, settle, Wire.move, Wire.handed?]
  generalize l.wire.taken? .run = taken?, l.wire.runNext = next at hran hawake ⊢
  cases hran with
  | idle => exact ⟨hawake, settled, hfates, hsettled, by simpa using hhanded⟩
  | own => exact ⟨hawake, settled, hfates, hsettled, by simpa using hhanded⟩
  | last => exact ⟨hawake, settled, hfates, hsettled, by simpa using hhanded⟩
  | @sent rest message more htasks hconnected hmessages =>
    refine ⟨hawake, settled ++ [(message, .taken)], ?_, ?_, ?_⟩
    · rw [hmessages, List.map_cons] at hfates
      simp [hfates, takeOff_waiting hsettled]
    · intro entry hentry
      rcases List.mem_append.mp hentry with hold | hnew
      · exact hsettled entry hold
      · rw [List.mem_singleton.mp hnew]
        simp
    · by_cases hfits : message.Fits <;> simp [hhanded, hfits]

theorem step (h : l.Balanced) (m : Wire.Move τ) : (l.step m).Balanced := by
  cases m with
  | push message => exact h.push message
  | setConnected connected =>
    exact h.still (Wire.messages_setConnected connected) rfl (List.append_nil _)
  | clear => exact h.clear
  | run => exact h.run
  | post task => exact h.still rfl rfl (List.append_nil _)
  | relink link => exact h.still rfl rfl (List.append_nil _)

theorem after (h : l.Balanced) (moves : List (Wire.Move τ)) : (l.after moves).Balanced := by
  induction moves generalizing l with
  | nil => exact h
  | cons m rest ih => exact ih (h.step m)

end Balanced

end Ledger

/-! ## Whole runs -/

end ValueTree
