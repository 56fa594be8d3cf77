/-!
# The agenda

Tasks wait in the order in which they were posted. Timers wait in the order in which they were
armed. A timer either fires, and its task is done at once, or it expires, and its task waits its
turn.
-/

namespace ValueTree

structure Timer (τ : Type) where
  number : Nat
  /-- In milliseconds. -/
  delay : Nat
  task : τ
deriving Repr, Inhabited

structure Agenda (τ : Type) where
  tasks : List τ := []
  timers : List (Timer τ) := []
  /-- The delay of every timer there ever was. -/
  armed : List Nat := []
  nextTimer : Nat := 0
deriving Repr, Inhabited

namespace Agenda

variable {τ : Type}

def post (a : Agenda τ) (task : τ) : Agenda τ := { a with tasks := a.tasks ++ [task] }

/-- The task at the front, and the agenda without it. -/
def next? (a : Agenda τ) : Option (τ × Agenda τ) :=
  match a.tasks with
  | [] => none
  | task :: rest => some (task, { a with tasks := rest })

/-- Arms a timer; the number cancels it. -/
def arm (a : Agenda τ) (delay : Nat) (task : τ) : Nat × Agenda τ :=
  (a.nextTimer,
    { a with
      timers := a.timers ++ [⟨a.nextTimer, delay, task⟩]
      armed := a.armed ++ [delay]
      nextTimer := a.nextTimer + 1 })

/-- Takes a timer away. A task that waits its turn is out of reach. -/
def cancel (a : Agenda τ) (number : Nat) : Agenda τ :=
  { a with timers := a.timers.filter (·.number ≠ number) }

/-- The first timer that was armed, and the agenda without it. -/
def fire? (a : Agenda τ) : Option (Timer τ × Agenda τ) :=
  match a.timers with
  | [] => none
  | timer :: rest => some (timer, { a with timers := rest })

/-- The delay of a timer is over: if the timer was not cancelled, its task joins the tasks. -/
def expire (a : Agenda τ) (number : Nat) : Agenda τ :=
  match a.timers.find? (·.number = number) with
  | none => a
  | some timer =>
    { a with
      tasks := a.tasks ++ [timer.task]
      timers := a.timers.filter (·.number ≠ number) }

/-- The delays of the timers that wait. -/
def delays (a : Agenda τ) : List Nat := a.timers.map (·.delay)

end Agenda

end ValueTree
