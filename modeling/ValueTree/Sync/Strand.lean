import ValueTree.Sync.Agenda

/-!
# The strand

An agenda in time. Tasks are done one at a time in the order in which they came, and a timer whose
moment has come hands its task over to them. Time goes on only when there is no task left.
-/

namespace ValueTree

/-! ## Commands -/

inductive StrandCommand
  /-- Posts a task that logs its name and carries out some commands. -/
  | post (name : String) (script : List StrandCommand)
  | postAfter (name : String) (delay : Nat) (script : List StrandCommand)
  /-- Cancels the timer of a name. -/
  | cancel (name : String)
deriving Inhabited

/-- A task: its name and what it carries out. -/
structure StrandTask where
  name : String
  commands : List StrandCommand
deriving Inhabited

/-! ## State -/

structure Strand where
  agenda : Agenda StrandTask := {}
  /-- In milliseconds since the start. -/
  now : Nat := 0
  /-- The moment of each timer by its number. -/
  moments : List (Nat × Nat) := []
  /-- The number of the last timer of each name. -/
  handles : List (String × Nat) := []
  /-- The names of the tasks that were done. -/
  log : List String := []

namespace Strand

/-- A timer that is armed now. -/
def arm (s : Strand) (delay : Nat) (task : StrandTask) : Strand :=
  let (number, agenda) := s.agenda.arm delay task
  { s with
    agenda
    moments := s.moments ++ [(number, s.now + delay)]
    handles := s.handles.filter (·.1 ≠ task.name) ++ [(task.name, number)] }

/-- Whether the timer at hand is cancelled, if there is one. A new timer is not; one that is
cancelled stays so. -/
def act (s : Strand) : StrandCommand → Option Bool × Strand
  | .post name script => (none, { s with agenda := s.agenda.post ⟨name, script⟩ })
  | .postAfter name delay script => (some false, s.arm delay ⟨name, script⟩)
  | .cancel name =>
    match s.handles.lookup name with
    | none => (none, s)
    | some number => (some true, { s with agenda := s.agenda.cancel number })

def actAll (s : Strand) : List StrandCommand → List (Option Bool) × Strand
  | [] => ([], s)
  | command :: rest =>
    let (reply, s) := s.act command
    let (replies, s) := s.actAll rest
    (reply :: replies, s)

/-! ## Running -/

/-- Does a task. -/
def perform (s : Strand) (task : StrandTask) : Strand :=
  ({ s with log := s.log ++ [task.name] }.actAll task.commands).2

/-- The moment at which a timer of the agenda expires. -/
def moment (s : Strand) (timer : Timer StrandTask) : Nat := (s.moments.lookup timer.number).getD 0

/-- The timer that expires next; of one moment the one that was armed first. -/
def earliest? (s : Strand) : Option (Timer StrandTask) :=
  s.agenda.timers.foldl
    (fun best timer =>
      match best with
      | none => some timer
      | some other => if s.moment timer < s.moment other then some timer else some other)
    none

/-- Goes on to the moment of a timer, which expires. -/
def advance (s : Strand) (timer : Timer StrandTask) : Strand :=
  { s with
    now := max s.now (s.moment timer)
    agenda := s.agenda.expire timer.number }

/-- Does the task at the front; with no task left, goes on to the next timer. -/
def step? (s : Strand) : Option Strand :=
  match s.agenda.next? with
  | some (task, agenda) => some ({ s with agenda }.perform task)
  | none => s.earliest?.map s.advance

/-- Runs until neither a task nor a timer is left. -/
def settle : (fuel : Nat) → Strand → Strand
  | 0, s => s
  | fuel + 1, s =>
    match s.step? with
    | none => s
    | some next => settle fuel next

/-- More steps than any script comes to. -/
def patience : Nat := 1000000

/-- Carries out commands while the strand stands still, then lets it run. The log holds what was
done. -/
def batch (s : Strand) (commands : List StrandCommand) : List (Option Bool) × Strand :=
  let (replies, posted) := { s with log := [] }.actAll commands
  (replies, settle patience posted)

def batches (s : Strand) :
    List (List StrandCommand) → List (List (Option Bool) × List String) × Strand
  | [] => ([], s)
  | commands :: rest =>
    let (replies, s) := s.batch commands
    let (rows, last) := s.batches rest
    ((replies, s.log) :: rows, last)

/-- Commands to a strand that was stopped are answered, but nothing comes of them. -/
def afterStop (s : Strand) (commands : List StrandCommand) : List (Option Bool) :=
  (s.actAll commands).1

end Strand

end ValueTree
