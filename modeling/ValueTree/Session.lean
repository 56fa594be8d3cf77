import ValueTree.Observers
import ValueTree.Session.Command

/-!
# Sessions

A session is a store with everything that can be around it: observers, a loader, and a client with
its wire.

A callback that is dropped while it runs runs to its end. So does a loader or a client: it goes when
nobody is at work with it any more.
-/

namespace ValueTree

/-! ## State -/

structure Observer where
  name : String
  /-- Only events of this id are heard. -/
  only : Option Id := none
  reaction : List Command := []
  /-- How often the reaction may be carried out; without a reaction, never. -/
  limit : Nat := 0
deriving Inhabited

namespace Observer

/-- The name of the observer whose log entries show whole events. -/
def main : String := "main"

end Observer

structure Completion where
  tag : String
  reaction : List Command := []
  limit : Nat := 0
deriving Inhabited

/-- Who hears of changes. -/
inductive Listener
  | observer (observer : Observer)
  | client
  | loader (serial : Nat)
deriving Inhabited

/-- How a listener is known. -/
inductive Hearer
  | observer (name : String)
  | client
  | loader (serial : Nat)
deriving DecidableEq, Repr, Inhabited

def Listener.hearer : Listener → Hearer
  | .observer o => .observer o.name
  | .client => .client
  | .loader serial => .loader serial

/-- What comes to pass in a session. -/
inductive Mark
  /-- A change took effect, and these events tell of it. -/
  | made (events : List Event)
  | handed (hearer : Hearer) (event : Event)
deriving DecidableEq, Repr, Inhabited

/-- Something that may be dropped while somebody is at work with it. -/
structure Tenure where
  holders : Nat := 0
  released : Bool := false
deriving DecidableEq, Repr, Inhabited

namespace Tenure

def isOver (t : Tenure) : Bool := t.released && t.holders = 0

def hold (t : Tenure) : Tenure := { t with holders := t.holders + 1 }

def letGo (t : Tenure) : Tenure := { t with holders := t.holders - 1 }

def release (t : Tenure) : Tenure := { t with released := true }

end Tenure

/-- A loader at work, with the number of its listener. -/
structure LoaderSeat where
  serial : Nat
  loader : Loader
  listener : Nat
  tenure : Tenure := {}
deriving Repr, Inhabited

/-- A client at work, with the number of its listener. -/
structure ClientSeat where
  client : Client Completion
  listener : Nat
  tenure : Tenure := {}

structure Session where
  store : Store := {}
  listeners : Registry Listener := {}
  /-- The numbers of the observers, by name. -/
  handles : List (String × Nat) := []
  /-- How often each reaction has been carried out, by name. -/
  uses : List (String × Nat) := []
  log : List LogEntry := []
  files : FileTree := {}
  loaders : List LoaderSeat := []
  nextLoader : Nat := 0
  filter : Filter := { app := "" }
  client : Option ClientSeat := none
  wire : Wire LinkEvent := {}
  /-- The deeds of the client. -/
  journal : List (Deed Completion) := []
  /-- The changes, and who was told of them. Nothing reads it: it is there to speak about the order
  in which things come to pass. -/
  history : List Mark := []
  /-- Callbacks came to nest deeper than there is room for. Nothing reads it: what comes of such a
  session says nothing about the program. -/
  overrun : Bool := false

namespace Session

def write (s : Session) (entry : LogEntry) : Session := { s with log := s.log ++ [entry] }

def record (s : Session) (deed : Deed Completion) : Session :=
  { s with journal := s.journal ++ [deed] }

def mark (s : Session) (mark : Mark) : Session := { s with history := s.history ++ [mark] }

/-! ## Observers -/

def usesOf (s : Session) (name : String) : Nat := (s.uses.lookup name).getD 0

def countUse (s : Session) (name : String) : Session :=
  { s with uses := s.uses.filter (·.1 ≠ name) ++ [(name, s.usesOf name + 1)] }

def unobserve (s : Session) (name : String) : Session :=
  match s.handles.lookup name with
  | none => s
  | some number =>
    { s with
      listeners := s.listeners.detach number
      handles := s.handles.filter (·.1 ≠ name) }

/-- Registers an observer; one of the same name is dropped afterwards. -/
def observe (s : Session) (observer : Observer) : Session :=
  let (number, listeners) := s.listeners.subscribe (.observer observer)
  let s := { s with listeners }.unobserve observer.name
  { s with handles := s.handles ++ [(observer.name, number)] }

/-! ## Loaders -/

def loader? (s : Session) (serial : Nat) : Option Loader :=
  (s.loaders.find? (·.serial = serial)).map (·.loader)

/-- The loader that is attached. -/
def attached? (s : Session) : Option LoaderSeat := s.loaders.find? (!·.tenure.released)

/-- Changes the tenure of a loader; with the end of it the loader goes. -/
def tendLoader (s : Session) (serial : Nat) (f : Tenure → Tenure) : Session :=
  let seats := s.loaders.map fun seat =>
    if seat.serial = serial then { seat with tenure := f seat.tenure } else seat
  let ended := seats.filter (·.tenure.isOver)
  { s with
    loaders := seats.filter (!·.tenure.isOver)
    listeners := ended.foldl (fun listeners seat => listeners.detach seat.listener) s.listeners }

/-- Seats a loader and releases the one before it. -/
def seatLoader (s : Session) (loader : Loader) : Session :=
  let (listener, listeners) := s.listeners.subscribe (.loader s.nextLoader)
  let seat : LoaderSeat := { serial := s.nextLoader, loader, listener }
  let before := s.attached?
  let s := { s with listeners, loaders := s.loaders ++ [seat], nextLoader := s.nextLoader + 1 }
  match before with
  | some seat => s.tendLoader seat.serial Tenure.release
  | none => s

/-! ## Clients -/

/-- Seats a client with a wire of its own. -/
def seatClient (s : Session) (config : ClientConfig) : Session :=
  let (listener, listeners) := s.listeners.subscribe .client
  { s with
    listeners
    filter := Client.initialFilter config
    client := some { client := Client.new config, listener }
    wire := { framing := config.framing, reconnector := { backoff := config.backoff } } }

/-- Changes the tenure of the client; with the end of it the client goes, and its timers with it. -/
def tendClient (s : Session) (f : Tenure → Tenure) : Session :=
  match s.client with
  | none => s
  | some seat =>
    let seat := { seat with tenure := f seat.tenure }
    if seat.tenure.isOver then
      { s with client := none, listeners := s.listeners.detach seat.listener, wire := s.wire.stop }
    else { s with client := some seat }

/-- Changes the client, if there is one. -/
def adjustClient (s : Session) (f : Client Completion → Client Completion) : Session :=
  { s with client := s.client.map fun seat => { seat with client := f seat.client } }

/-- The client, unless it was dropped. -/
def owned? (s : Session) : Option (Client Completion) :=
  match s.client with
  | some seat => if seat.tenure.released then none else some seat.client
  | none => none

/-- A session with its main observer and some files. -/
def fresh (files : FileTree) : Session :=
  ({ files } : Session).observe { name := Observer.main }

end Session

end ValueTree
