import ValueTree.Session.Command

/-!
# The rig

A wire on its own, with scripts for tasks and a log of what the link tells. Tasks, and a hook on the
attempts to connect again, carry out commands in turn.
-/

namespace ValueTree

/-! ## Commands -/

inductive RigCommand
  /-- Posts a task that logs its name and carries out some commands. -/
  | post (name : String) (script : List RigCommand)
  | postAfter (name : String) (delay : Nat) (script : List RigCommand)
  /-- Cancels the timer of a name. -/
  | cancel (name : String)
  | run
  | fire
  | armed
  | connect
  | close
  | send (frame : List UInt8)
  | reachable (reachable : Bool)
  | lose
  | inject (bytes : List UInt8)
  /-- Nobody listens to the link any more. -/
  | dropSink
  | frames
  | sent
  | push (message : Message)
  | setConnected (connected : Bool)
  | clear
  | connectionUp
  | arm
  | stop
  /-- Carries out commands at each attempt to connect again. -/
  | hook (started failed : List RigCommand)
deriving Inhabited

inductive RigEntry
  | task (name : String)
  | within (name : String) (reply : Reply)
  | attempt (attempt : Attempt)
  | link (event : LinkEvent)
deriving Inhabited

/-! ## State -/

/-- A task: its name and what it carries out. -/
structure Script where
  name : String
  commands : List RigCommand
deriving Inhabited

/-- A timer that can be cancelled by name. -/
structure RigTimer where
  number : Nat
  cancelled : Bool := false
deriving DecidableEq, Repr, Inhabited

structure Rig where
  wire : Wire Script := {}
  timers : List (String × RigTimer) := []
  /-- What is carried out when an attempt starts, and when it fails. -/
  hook : Option (List RigCommand × List RigCommand) := none
  /-- Somebody listens to the link. -/
  sink : Bool := true
  /-- What the link tells goes on to the reconnector and the outbox. -/
  wired : Bool := false
  log : List RigEntry := []

namespace Rig

/-- What works on a rig, given how the commands of a name are carried out. -/
abbrev Run := ReaderT (String → List RigCommand → Rig → Rig) (StateM Rig)

def note (entry : RigEntry) : Run Unit := modify fun r => { r with log := r.log ++ [entry] }

def call (name : String) (commands : List RigCommand) : Run Unit :=
  fun carryOut r => ((), carryOut name commands r)

def adjust (f : Wire Script → Wire Script) : Run Unit := modify fun r => { r with wire := f r.wire }

/-- The reconnector and the outbox learn what the link tells. -/
def forward : LinkEvent → Run Unit
  | .connected => adjust fun w => w.connectionUp.setConnected true
  | .disconnected => adjust fun w => (w.setConnected false).arm
  | .received _ => pure ()

instance : Station Script Run where
  wire := do pure (← get).wire
  adjust := adjust
  announce attempt := do
    match (← get).hook with
    | none => pure ()
    | some (started, failed) => do
      note (.attempt attempt)
      call "hook" (match attempt with
        | .started => started
        | .failed => failed)
  notify event := do
    let r ← get
    if r.sink then
      note (.link event)
      if r.wired then forward event

def perform (script : Script) : Run Unit := do
  note (.task script.name)
  call script.name script.commands

def work : Job Script → Run Unit := Station.work perform

/-- More jobs than any agenda comes to. -/
def patience : Nat := 1000000

def nameTimer (name : String) (timer : RigTimer) (r : Rig) : Rig :=
  { r with timers := r.timers.filter (·.1 ≠ name) ++ [(name, timer)] }

/-- Cancels a timer; whether it was cancelled before, and that it is now. -/
def cancel (name : String) : Run Reply := do
  match (← get).timers.lookup name with
  | none => pure .nothing
  | some timer => do
    modify (nameTimer name { timer with cancelled := true })
    adjust fun w => { w with agenda := w.agenda.cancel timer.number }
    pure (.bools [timer.cancelled, true])

def act : RigCommand → Run Reply
  | .post name script => do
    adjust (·.post ⟨name, script⟩)
    pure .nothing
  | .postAfter name delay script => do
    let (number, agenda) := (← get).wire.agenda.arm delay (.own ⟨name, script⟩)
    adjust fun w => { w with agenda }
    modify (nameTimer name { number })
    pure .nothing
  | .cancel name => cancel name
  | .run => do pure (.nat (← Station.runUntilIdle work patience))
  | .fire => do pure (.ofOption .nat (← Station.fire work patience))
  | .armed => do pure (.nats (← get).wire.agenda.armed)
  | .connect => do pure (.ofSync (fun _ => .nothing) (← Station.connect))
  | .close => do
    adjust fun w => { w with link := w.link.close }
    pure .nothing
  | .send frame => do
    let (result, link) := (← get).wire.link.send frame
    adjust fun w => { w with link }
    pure (.ofSync (fun _ => .nothing) result)
  | .reachable reachable => do
    adjust fun w => { w with link := { w.link with reachable } }
    pure .nothing
  | .lose => do
    (Station.lose : Run Unit)
    pure .nothing
  | .inject bytes => do
    (Station.notify (.received bytes) : Run Unit)
    pure .nothing
  | .dropSink => do
    modify fun r => { r with sink := false }
    pure .nothing
  | .frames => do pure (.frames (← get).wire.link.sent)
  | .sent => do
    let (messages, link) := (← get).wire.link.takeMessages
    adjust fun w => { w with link }
    pure (.ofSync .messages messages)
  | .push message => do
    adjust (·.push message)
    pure .nothing
  | .setConnected connected => do
    adjust (·.setConnected connected)
    pure .nothing
  | .clear => do
    let count := (← get).wire.outbox.size
    adjust Wire.clear
    pure (.nat count)
  | .connectionUp => do
    adjust Wire.connectionUp
    pure .nothing
  | .arm => do
    adjust Wire.arm
    pure .nothing
  | .stop => do
    adjust Wire.stop
    pure .nothing
  | .hook started failed => do
    modify fun r => { r with hook := some (started, failed) }
    pure .nothing

/-- Carries out the commands of a name and logs each; the fuel bounds how deep that nests. -/
def carryOut : (fuel : Nat) → String → List RigCommand → Rig → Rig
  | 0, _, _, r => r
  | fuel + 1, name, commands, r =>
    let steps : Run Unit := commands.forM fun command => do
      let reply ← act command
      note (.within name reply)
    (steps.run (carryOut fuel) r).2

/-- Deeper than scripts nest. -/
def depthLimit : Nat := 1000000

/-- Carries out a command; the log holds what came of it. -/
def step (r : Rig) (command : RigCommand) : Reply × Rig :=
  (act command).run (carryOut depthLimit) { r with log := [] }

/-- The reply to each command, and the rig after it. -/
def steps (r : Rig) : List RigCommand → List (Reply × Rig)
  | [] => []
  | command :: rest =>
    let row := r.step command
    row :: row.2.steps rest

end Rig

end ValueTree
