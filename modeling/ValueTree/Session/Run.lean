import ValueTree.Session

/-!
# Carrying out commands

Commands are carried out one after the other. The callbacks that a command sets off are carried out
within it, and so are the commands that they bring.
-/

namespace ValueTree

/-! ## Callbacks -/

/-- What a change can set off. -/
inductive Callback
  | react (name : String) (reaction : List Command) (limit : Nat)
  | trigger (serial : Nat)

/-- What works on a session, given how callbacks are carried out. -/
abbrev Run := ReaderT (Callback → Session → Session) (StateM Session)

namespace Run

def call (callback : Callback) : Run Unit := fun carryOut s => ((), carryOut callback s)

def log (entry : LogEntry) : Run Unit := modify (·.write entry)

/-- Keeps the client while something is done with it. -/
def holdingClient {α : Type} (act : Run α) : Run α := do
  modify (·.tendClient Tenure.hold)
  let a ← act
  modify (·.tendClient Tenure.letGo)
  pure a

def holdingLoader {α : Type} (serial : Nat) (act : Run α) : Run α := do
  modify (·.tendLoader serial Tenure.hold)
  let a ← act
  modify (·.tendLoader serial Tenure.letGo)
  pure a

/-- An observer hears of an event. -/
def observed (observer : Observer) (event : Event) : Run Unit := do
  if observer.only.isNone || observer.only = some event.id then
    log (if observer.name = Observer.main then .event event else .heard observer.name event)
    call (.react observer.name observer.reaction observer.limit)

/-- A message for the authority, if there is a client that hears of the event. -/
def relayed (event : Event) : Run Unit := do
  if (← get).client.isSome then
    match event.message? with
    | some message => modify fun s => { s with wire := s.wire.push message }
    | none => pure ()

/-- A loader hears of an event. -/
def ordered (serial : Nat) (event : Event) : Run Unit := do
  match (← get).loader? serial with
  | some loader => if loader.isOrder event then call (.trigger serial)
  | none => pure ()

def hear (event : Event) (listener : Listener) : Run Unit := do
  modify (·.mark (.handed listener.hearer event))
  match listener with
  | .observer observer => observed observer event
  | .client => relayed event
  | .loader serial => ordered serial event

/-- Everybody who is listening now hears of an event. -/
def deliver (event : Event) : Run Unit := do
  (← get).listeners.snapshot.forM (hear event)

instance : Host Run where
  store := do pure (← get).store
  change step := do
    let outcome := step (← get).store
    modify fun s => { s.mark (.made outcome.events) with store := outcome.store }
    outcome.events.forM deliver
    pure outcome.result

instance : Completes Completion Run where
  client := do
    match (← get).client with
    | some seat => pure seat.client
    | none => pure (Client.new {})
  adjustClient f := modify (·.adjustClient f)
  record deed := modify (·.record deed)
  complete completion ok := do
    log (.completed completion.tag ok)
    call (.react ("completion:" ++ completion.tag) completion.reaction completion.limit)

instance : Receiver Run where
  filter := do pure (← get).filter
  adjustFilter f := modify fun s => { s with filter := f s.filter }
  answered sequence ok := do
    log (.result sequence ok)
    modify (·.record (.answered sequence ok))
    match (← get).client with
    | some seat =>
      if seat.client.listening then holdingClient (Client.onResult sequence ok)
    | none => pure ()

instance : Station LinkEvent Run where
  wire := do pure (← get).wire
  adjust f := modify fun s => { s with wire := f s.wire }
  announce attempt := Completes.adjustClient (·.attempted attempt)
  notify event := do
    if (← get).client.isSome then modify fun s => { s with wire := s.wire.post event }

/-! ## Jobs -/

/-- A job does nothing once the client has gone. -/
def work (job : Job LinkEvent) : Run Unit := do
  if (← get).client.isSome then
    match job with
    | .own event => holdingClient (Client.onLink event)
    | job => Station.work (fun _ => pure ()) job

/-- More jobs than any agenda comes to. -/
def patience : Nat := 1000000

def runUntilIdle : Run Nat := Station.runUntilIdle work patience

/-! ## Commands -/

def answer (query : Query) (s : Store) : Reply :=
  match query with
  | .value id => .ofOption .value (s.get? id)
  | .has id => .bool (s.has id)
  | .kind id => .ofOption .kind (s.kind? id)
  | .children id => .ids (s.children id)
  | .hasChildren id => .bool (s.hasChildren id)
  | .nearest id => .ofOption .id (s.nearest? id)
  | .keys id => .ofStore .texts (s.keys id)
  | .schema id => .ofOption .schema (s.schema? id)
  | .schemas => .ids (s.schemas.map (·.id))
  | .size => .size s.size
  | .values => .values s.values
  | .ids => .ids s.ids

def change (change : Change) : Run Reply := do pure (.ofStore .ofAnswer (← change.perform))

def fragment (command : FragmentCommand) (text : String) : Run Reply := do
  match Fragment.parse text with
  | .error fault => pure (.schemaError (.parse fault))
  | .ok f =>
    let steps : ExceptT StoreError Run Unit := match command with
      | .load => f.load
      | .unload => f.unload
      | .reload => f.reload
      | .declare => f.declareInto
    pure (.ofSchema (fun _ => .nothing) ((← steps.run).mapError .store))

/-- Does something with the loader that is attached. -/
def withLoader (act : Loader → Run Reply) : Run Reply := do
  match (← get).attached? with
  | some seat => holdingLoader seat.serial (act seat.loader)
  | none => pure .nothing

def loader : LoaderCommand → Run Reply
  | .attach loader => do
    match ← (loader.attach : ExceptT StoreError Run Unit).run with
    | .error e => pure (.schemaError (.store e))
    | .ok _ => do
      modify (·.seatLoader loader)
      pure (.attached loader)
  | .detach => do
    match (← get).attached? with
    | some seat => do
      modify (·.tendLoader seat.serial Tenure.release)
      pure (.bool true)
    | none => pure (.bool false)
  | .trigger => withLoader fun loader => do
    pure (.loadStatus (← loader.trigger (← get).files))
  | .status => withLoader fun loader => do pure (.loadStatus (loader.status (← get).store))
  | .run action path => withLoader fun loader => do
    pure (.ofSchema (fun _ => .nothing) (← loader.run (← get).files action path))
  | .writeFile path bytes => do
    modify fun s => { s with files := s.files.write path bytes }
    pure .nothing
  | .makeDirectory path => do
    modify fun s => { s with files := s.files.makeDirectory path }
    pure .nothing
  | .deleteFile path => do
    let (deleted, files) := (← get).files.delete path
    modify fun s => { s with files }
    pure (.bool deleted)

def receiver : ReceiverCommand → Run Reply
  | .app => do pure (.text (← get).filter.app)
  | .insertFilter root => do
    modify fun s => { s with filter := s.filter.insert root }
    pure .nothing
  | .eraseFilter root => do
    modify fun s => { s with filter := s.filter.erase root }
    pure .nothing
  | .hasFilter root => do pure (.bool ((← get).filter.has root))
  | .hides id => do
    let s ← get
    pure (.bool (s.filter.hides s.store id))
  | .isOwn id => do pure (.bool ((← get).filter.isOwn id))
  | .update update => do pure (.bool (← Receiver.applyUpdate update))
  | .handle message => do
    (Client.carryOut message : Run Unit)
    pure .nothing
  | .outbound event => pure (.ofOption .message event.message?)

/-- Does something with the client, unless it was dropped. -/
def withClient (act : Client Completion → Run Reply) : Run Reply := do
  match (← get).owned? with
  | some client => holdingClient (act client)
  | none => pure .nothing

def request (request : Request) (completion : Completion) : Run Reply :=
  withClient fun _ => do
    let sequence ← match request with
      | .subscribe ids => (Client.subscribe ids completion : Run UInt32)
      | .subscribeAll => Client.subscribeAll completion
      | .multiGet ids => Client.multiGet ids completion
      | .multiSet values => Client.multiSet values completion
    pure (.nat sequence.toNat)

def timerCount : Run Nat := do pure (← get).wire.agenda.timers.length

/-- Drops the client, does what is left on the agenda, and lets a byte come in. -/
def dropClient : Run Reply := do
  let before ← timerCount
  modify (·.tendClient Tenure.release)
  let after ← timerCount
  let count ← runUntilIdle
  (Station.notify (.received [0]) : Run Unit)
  pure (.nats [before, after, count])

def client : ClientCommand → Run Reply
  | .start => withClient fun _ => do
    (Client.start : Run Unit)
    pure .nothing
  | .shutdown => withClient fun _ => do
    (Client.shutdown : Run Unit)
    pure .nothing
  | .unsubscribeAll => withClient fun _ => do
    let sequence ← (Client.unsubscribeAll : Run UInt32)
    pure (.nat sequence.toNat)
  | .cancel sequence => withClient fun _ => do pure (.bool (← Client.cancel sequence))
  | .register root => withClient fun _ => do
    let result ← (Client.registerEntry root : ExceptT StoreError Run Unit).run
    pure (.ofSync (fun _ => .nothing) (result.mapError .store))
  | .owner id => withClient fun client => do
    pure (.owner client.config ((← get).store.has id))
  | .drop => do
    if (← get).owned?.isSome then dropClient else pure .nothing

/-- The pieces in which bytes come in; no bytes at once are one empty piece. -/
def chunks (chunk : Option Nat) (bytes : List UInt8) : List (List UInt8) :=
  match chunk with
  | some size => if positive : 0 < size then cut size positive bytes else [bytes]
  | none => [bytes]

def wire : WireCommand → Run Reply
  | .run => do pure (.nat (← runUntilIdle))
  | .fire => do pure (.ofOption .nat (← Station.fire work patience))
  | .armed => do pure (.nats (← get).wire.agenda.armed)
  | .reachable reachable => do
    modify fun s => { s with wire := { s.wire with link := { s.wire.link with reachable } } }
    pure .nothing
  | .lose => do
    (Station.lose : Run Unit)
    pure .nothing
  | .connect => do pure (.ofSync (fun _ => .nothing) (← Station.connect))
  | .close => do
    modify fun s => { s with wire := { s.wire with link := s.wire.link.close } }
    pure .nothing
  | .attempts => do pure (.nat (← get).wire.link.attempts)
  | .sent => do
    let (messages, link) := (← get).wire.link.takeMessages
    modify fun s => { s with wire := { s.wire with link } }
    pure (.ofSync .messages messages)
  | .frames => do pure (.frames (← get).wire.link.sent)
  | .inject bytes chunk run => do
    (chunks chunk bytes).forM fun piece => (Station.notify (.received piece) : Run Unit)
    if run then pure (.nat (← runUntilIdle)) else pure .nothing

def act : Command → Run Reply
  | .invalid fault => pure (.storeError (.invalidId fault))
  | .query query => do pure (answer query (← get).store)
  | .change c => change c
  | .observe name only reaction limit => do
    modify (·.observe { name, only, reaction, limit })
    pure .nothing
  | .unobserve name => do
    let held := ((← get).handles.lookup name).isSome
    modify (·.unobserve name)
    pure (.bool held)
  | .fragment command text => fragment command text
  | .loader command => loader command
  | .receiver command => receiver command
  | .request r tag reaction limit => request r { tag, reaction, limit }
  | .client command => client command
  | .wire command => wire command

/-! ## Carrying out -/

/-- A reaction is carried out as often as its limit allows, over the whole session. -/
def react (name : String) (reaction : List Command) (limit : Nat) : Run Unit := do
  if (← get).usesOf name < limit then
    modify (·.countUse name)
    reaction.forM fun command => do
      let reply ← act command
      log (.within name reply)

def perform : Callback → Run Unit
  | .react name reaction limit => react name reaction limit
  | .trigger serial => do
    match (← get).loader? serial with
    | some loader => holdingLoader serial do
      let _ ← (loader.trigger (← get).files : Run LoadStatus)
    | none => pure ()

/-- Carries out a callback; the fuel bounds how deep callbacks nest, and the session remembers when
it ran out. -/
def carryOut : (fuel : Nat) → Callback → Session → Session
  | 0, _, s => { s with overrun := true }
  | fuel + 1, callback, s => ((perform callback).run (carryOut fuel) s).2

/-- How deep callbacks may nest, which is more than a stack has room for. -/
def depthLimit : Nat := 4000

end Run

namespace Session

/-- Carries out a command with everything that it sets off. -/
def step (s : Session) (command : Command) : Reply × Session :=
  (Run.act command).run (Run.carryOut Run.depthLimit) s

/-! ## Whole sessions -/

/-- How the client and its wire look from outside. -/
structure ClientStatus where
  state : ConnectionState
  queued : Nat
  pending : Nat
  tasks : Nat
  timers : List Nat
  connected : Bool
deriving DecidableEq, Repr

def status? (s : Session) : Option ClientStatus :=
  s.owned?.map fun client => {
    state := client.connection
    queued := s.wire.outbox.size
    pending := client.pending.length
    tasks := s.wire.agenda.tasks.length
    timers := s.wire.agenda.delays
    connected := s.wire.link.connected }

/-- What came of one command. -/
structure Row where
  reply : Reply
  log : List LogEntry
  status : Option ClientStatus

def steps (s : Session) : List Command → List Row × Session
  | [] => ([], s)
  | command :: rest =>
    let (reply, next) := s.step command
    let row : Row := { reply, log := next.log, status := next.status? }
    let (rows, last) := { next with log := [] }.steps rest
    (row :: rows, last)

end Session

end ValueTree
