import ValueTree.Sync.Agenda
import ValueTree.Sync.Link
import ValueTree.Sync.Outbox
import ValueTree.Sync.Reconnector

/-!
# The wire

A link with everything that works on it: an agenda of jobs, the outbox, and the reconnector. The
owner of the wire puts jobs of its own on the same agenda.
-/

namespace ValueTree

inductive Job (τ : Type)
  /-- Send a message of the outbox. -/
  | drain
  /-- Try to connect again. -/
  | retry
  | own (task : τ)
deriving Repr, Inhabited

structure Wire (τ : Type) where
  agenda : Agenda (Job τ) := {}
  link : Link := {}
  outbox : Outbox := {}
  reconnector : Reconnector := {}
  framing : Framing := .marked
deriving Repr, Inhabited

/-- The course of an attempt to connect again. -/
inductive Attempt
  | started
  | failed
deriving DecidableEq, Repr, Inhabited

namespace Wire

variable {τ : Type}

def post (w : Wire τ) (task : τ) : Wire τ := { w with agenda := w.agenda.post (.own task) }

/-! ## Sending -/

/-- Puts a drain on the agenda if one is wanted. -/
def scheduleDrain (w : Wire τ) : Wire τ :=
  if w.outbox.wantsDrain then
    { w with
      outbox := { w.outbox with draining := true }
      agenda := w.agenda.post .drain }
  else w

/-- Only a message in an empty outbox calls for a drain. -/
def push (w : Wire τ) (message : Message) : Wire τ :=
  let pushed := { w with outbox := w.outbox.push message }
  if w.outbox.messages.isEmpty then pushed.scheduleDrain else pushed

def setConnected (w : Wire τ) (connected : Bool) : Wire τ :=
  let w := { w with outbox := { w.outbox with connected } }
  if connected then w.scheduleDrain else w

def clear (w : Wire τ) : Wire τ := { w with outbox := w.outbox.clear }

/-- A drain: takes one message off the outbox and sends it, if it may, and leaves another drain
behind, whatever became of the message. -/
def drain (w : Wire τ) : Wire τ :=
  match w.outbox.take with
  | (none, outbox) => { w with outbox }
  | (some message, outbox) =>
    { w with
      outbox
      link := w.link.sendMessage w.framing message
      agenda := w.agenda.post .drain }

/-! ## Reconnecting -/

/-- Takes the timer that waits off the agenda. -/
def cancelRetry (w : Wire τ) : Wire τ :=
  match w.reconnector.timer with
  | some number => { w with agenda := w.agenda.cancel number }
  | none => w

def arm (w : Wire τ) : Wire τ :=
  match w.reconnector.delay? with
  | none => w
  | some delay =>
    let (number, agenda) := w.agenda.arm delay .retry
    { w with agenda, reconnector := w.reconnector.waiting number delay }

def connectionUp (w : Wire τ) : Wire τ :=
  { w.cancelRetry with reconnector := w.reconnector.connected }

def stop (w : Wire τ) : Wire τ :=
  { w.cancelRetry with reconnector := w.reconnector.stopped }

end Wire

/-! ## At work -/

/-- Where a wire is at work: attempts to connect again are announced, and so is what the link tells.
-/
class Station (τ : outParam Type) (m : Type → Type) where
  wire : m (Wire τ)
  adjust (f : Wire τ → Wire τ) : m Unit
  announce (attempt : Attempt) : m Unit
  notify (event : LinkEvent) : m Unit

namespace Station

variable {τ : Type} {m : Type → Type} [Monad m] [Station τ m]

/-- Connects; only a success is told by the link. -/
def connect : m (Except SyncError Unit) := do
  let (result, link) := (← (Station.wire : m (Wire τ))).link.connect
  (Station.adjust fun w => { w with link } : m Unit)
  if result.toBool then Station.notify (m := m) .connected
  pure result

/-- Loses the connection, if there is one. -/
def lose : m Unit := do
  let wasConnected := (← (Station.wire : m (Wire τ))).link.connected
  (Station.adjust fun w => { w with link := w.link.close } : m Unit)
  if wasConnected then Station.notify (m := m) .disconnected

/-- An attempt to connect again. Whatever comes of it, the next one is armed. -/
def retry : m Unit := do
  (Station.adjust fun w => { w with reconnector := w.reconnector.fired } : m Unit)
  Station.announce (m := m) .started
  let result ← (connect : m (Except SyncError Unit))
  if !result.toBool then Station.announce (m := m) .failed
  (Station.adjust Wire.arm : m Unit)

/-- Does a job; the owner does those of its own. -/
def work (own : τ → m Unit) : Job τ → m Unit
  | .drain => Station.adjust Wire.drain
  | .retry => retry
  | .own task => own task

/-- Does jobs until none is left, and counts them. -/
def runUntilIdle (work : Job τ → m Unit) : (fuel : Nat) → m Nat
  | 0 => pure 0
  | fuel + 1 => do
    match (← (Station.wire : m (Wire τ))).agenda.next? with
    | none => pure 0
    | some (job, _) => do
      (Station.adjust fun w => { w with agenda := { w.agenda with tasks := w.agenda.tasks.tail } } :
        m Unit)
      work job
      pure ((← runUntilIdle work fuel) + 1)

/-- Fires the first timer and does all the jobs that come of it. -/
def fire (work : Job τ → m Unit) (fuel : Nat) : m (Option Nat) := do
  match (← (Station.wire : m (Wire τ))).agenda.fire? with
  | none => pure none
  | some (timer, _) => do
    (Station.adjust fun w => { w with agenda := { w.agenda with timers := w.agenda.timers.tail } } :
      m Unit)
    work timer.task
    let _ ← runUntilIdle work fuel
    pure (some timer.delay)

end Station

end ValueTree
