import ValueTree.Sync.Config
import ValueTree.Sync.Inbound
import ValueTree.Sync.Outbound
import ValueTree.Sync.Wire

/-!
# The client

A client keeps a store in step with an authority. What happens in the store goes out through the
outbox, and what comes in on the link is carried out on the store. Each request may have a
completion, which runs once when the result comes.

When a connection that was up is lost, the outbox is emptied, and the state of the store and the
subscriptions are sent anew once there is a connection again.
-/

namespace ValueTree

/-! ## State -/

inductive ConnectionState
  | disconnected
  | connecting
  | connected
deriving DecidableEq, Repr, Inhabited

def ConnectionState.name : ConnectionState → String
  | .disconnected => "Disconnected"
  | .connecting => "Connecting"
  | .connected => "Connected"

structure Client (κ : Type) where
  config : ClientConfig
  connection : ConnectionState := .disconnected
  nextSequence : UInt32 := 1
  /-- The completions of the requests without a result. -/
  pending : List (UInt32 × κ) := []
  /-- Results are listened to; so it is while a completion is pending. -/
  listening : Bool := false
  /-- The roots at which the application has an entry. -/
  entries : List Id := []
  started : Bool := false
  deframer : Deframer

namespace Client

variable {κ : Type}

def new (config : ClientConfig) : Client κ :=
  { config, deframer := { limit := config.frameLimit } }

/-- The filter that a client starts with. -/
def initialFilter (config : ClientConfig) : Filter :=
  config.sharedRoots.foldl Filter.insert { app := config.app }

/-- The number that follows; zero is left out. -/
def following (n : UInt32) : UInt32 := if n + 1 = 0 then 1 else n + 1

/-- A fresh sequence number. -/
def allocate (c : Client κ) : UInt32 × Client κ :=
  (c.nextSequence, { c with nextSequence := following c.nextSequence })

/-- A fresh sequence number with a completion. -/
def register (c : Client κ) (completion : κ) : UInt32 × Client κ :=
  let (sequence, c) := c.allocate
  (sequence,
    { c with
      pending := c.pending.filter (·.1 ≠ sequence) ++ [(sequence, completion)]
      listening := true })

/-- Takes the completion of a sequence number. With the last one listening ends. -/
def take (c : Client κ) (sequence : UInt32) : Option κ × Client κ :=
  let pending := c.pending.filter (·.1 ≠ sequence)
  (c.pending.lookup sequence,
    { c with pending, listening := c.listening && !pending.isEmpty })

/-- How an attempt to connect again shows in the state. -/
def attempted (c : Client κ) : Attempt → Client κ
  | .started =>
    if c.connection = .disconnected then { c with connection := .connecting } else c
  | .failed =>
    if c.connection = .connecting then { c with connection := .disconnected } else c

/-! ## Receiving -/

/-- All complete messages at the front of a buffer. What cannot be read is passed over, but a frame
that is too long ends the search. -/
def takeMessages : (fuel : Nat) → Deframer → List Message × Deframer
  | 0, d => ([], d)
  | fuel + 1, d =>
    match d.nextMessage with
    | (.ok none, d) | (.error (.oversized ..), d) => ([], d)
    | (.error _, d) => takeMessages fuel d
    | (.ok (some message), d) =>
      let (more, d) := takeMessages fuel d
      (message :: more, d)

/-- Takes in bytes. Each frame has a header, so the bytes bound their number. -/
def takeIn (d : Deframer) (bytes : List UInt8) : List Message × Deframer :=
  let fed := d.feed bytes
  takeMessages (fed.buffered + 1) fed

def receive (c : Client κ) (bytes : List UInt8) : List Message × Client κ :=
  let (messages, deframer) := takeIn c.deframer bytes
  (messages, { c with deframer })

/-! ## Sending anew -/

/-- The entry of the application at a root: its key, and its value if there is one. -/
def entryUpdates (app : String) (s : Store) (root : Id) : List Update :=
  match root.join app with
  | .error _ => []
  | .ok entry => .addKey root app :: ((s.get? entry).map Update.set).toList

/-- The values that say something, in the order of their ids. -/
def currentValues (s : Store) : List Value := s.values.filter (·.hasData)

end Client

/-! ## The journal -/

/-- What a client does. Nothing reads its deeds: they are there to speak about whole runs. -/
inductive Deed (κ : Type)
  /-- A connection came up. -/
  | up
  /-- A connection was lost. -/
  | down
  /-- Bytes came in and completed these messages, which are now carried out. -/
  | received (bytes : List UInt8) (messages : List Message)
  | began (message : Message)
  | ended (message : Message)
  /-- The values of a result are in place. -/
  | answered (sequence : UInt32) (ok : Bool)
  | allocated (sequence : UInt32)
  | registered (sequence : UInt32) (completion : κ)
  | cancelled (sequence : UInt32) (wasPending : Bool)
  | ran (sequence : UInt32) (completion : κ) (ok : Bool)
deriving Repr, Inhabited

/-! ## At work -/

/-- Where a client is at work: it has a state, its deeds are recorded, and its completions can be
run. -/
class Completes (κ : outParam Type) (m : Type → Type) where
  client : m (Client κ)
  adjustClient (f : Client κ → Client κ) : m Unit
  record (deed : Deed κ) : m Unit
  complete (completion : κ) (ok : Bool) : m Unit

namespace Client

section

variable {κ : Type} {m : Type → Type} [Monad m] [Completes κ m]

def allocateSequence : m UInt32 := do
  let (sequence, _) := (← (Completes.client : m (Client κ))).allocate
  (Completes.adjustClient fun c => c.allocate.2 : m Unit)
  (Completes.record (.allocated sequence) : m Unit)
  pure sequence

def registerCompletion (completion : κ) : m UInt32 := do
  let (sequence, _) := (← (Completes.client : m (Client κ))).register completion
  (Completes.adjustClient fun c => (c.register completion).2 : m Unit)
  (Completes.record (.allocated sequence) : m Unit)
  (Completes.record (.registered sequence completion) : m Unit)
  pure sequence

/-- Drops a completion, and says whether it was pending. -/
def cancel (sequence : UInt32) : m Bool := do
  let (completion?, _) := (← (Completes.client : m (Client κ))).take sequence
  (Completes.adjustClient fun c => (c.take sequence).2 : m Unit)
  (Completes.record (.cancelled sequence completion?.isSome) : m Unit)
  pure completion?.isSome

/-- Runs the completion of a result. -/
def onResult (sequence : UInt32) (ok : Bool) : m Unit := do
  let (completion?, _) := (← (Completes.client : m (Client κ))).take sequence
  (Completes.adjustClient fun c => (c.take sequence).2 : m Unit)
  match completion? with
  | some completion => do
    (Completes.record (.ran sequence completion ok) : m Unit)
    Completes.complete completion ok
  | none => pure ()

end

section

variable {κ : Type} {m : Type → Type} [Monad m] [Receiver m] [Station LinkEvent m] [Completes κ m]

def send (message : Message) : m Unit := Station.adjust fun w => w.push message

/-! ## Requests -/

/-- Creates what is asked for and not there, without a type. -/
def materialize (ids : List Id) : m Unit :=
  ids.forM fun id => do
    let store ← (Host.store : m Store)
    if !id.isRoot && !store.has id then
      let _ ← (Host.declare id .unset .readWrite : m (Except StoreError SetStatus))

def subscribe (ids : List Id) (completion : κ) : m UInt32 := do
  (materialize ids : m Unit)
  let sequence ← registerCompletion completion
  send (.subscribe sequence ids)
  pure sequence

/-- Subscribes to everything; nothing is hidden any more. -/
def subscribeAll (completion : κ) : m UInt32 := do
  let roots := (← (Completes.client : m (Client κ))).config.sharedRoots
  (Receiver.adjustFilter fun f => roots.foldl Filter.erase f : m Unit)
  subscribe [.root] completion

def unsubscribeAll : m UInt32 := do
  let sequence ← (allocateSequence : m UInt32)
  send (.unsubscribe sequence)
  pure sequence

def multiGet (ids : List Id) (completion : κ) : m UInt32 := do
  (materialize ids : m Unit)
  let sequence ← registerCompletion completion
  send (.multiGet sequence ids)
  pure sequence

def multiSet (values : List Value) (completion : κ) : m UInt32 := do
  let sequence ← registerCompletion completion
  send (.multiSet sequence values)
  pure sequence

/-- Gives the application an entry at a root, which becomes a container if it is not there. -/
def registerEntry (root : Id) : ExceptT StoreError m Unit := do
  let app := (← (Completes.client : m (Client κ))).config.app
  let store ← (Host.store : m Store)
  if !store.has root then
    ExceptT.mk (Host.declareContainer { id := root, order := .ordered })
  let _ ← ExceptT.mk (Host.addKey root app .local)
  (Completes.adjustClient fun c =>
    if root ∈ c.entries then c else { c with entries := c.entries ++ [root] } : m Unit)

/-! ## The connection -/

def setConnection (connection : ConnectionState) : m Unit :=
  Completes.adjustClient fun c => { c with connection }

def start : m Unit := do
  let c ← (Completes.client : m (Client κ))
  if !c.started then
    (Completes.adjustClient fun c => { c with started := true, connection := .connecting } : m Unit)
    let result ← (Station.connect : m (Except SyncError Unit))
    if !result.toBool then
      (setConnection .disconnected : m Unit)
      (Station.adjust Wire.arm : m Unit)

def shutdown : m Unit := do
  (Station.adjust fun w =>
    let w := w.stop.setConnected false
    { w with link := w.link.close } : m Unit)
  Completes.adjustClient fun c => { c with connection := .disconnected, started := false }

def onConnected : m Unit := do
  (Completes.record .up : m Unit)
  (setConnection .connected : m Unit)
  Station.adjust fun w => w.connectionUp.setConnected true

/-- Empties the outbox and puts in the entries of the application, then the state of the store, then
a subscription to all that was in it. -/
def resync : m Unit := do
  (Station.adjust Wire.clear : m Unit)
  let c ← (Completes.client : m (Client κ))
  let store ← (Host.store : m Store)
  let entries := c.entries.flatMap (entryUpdates c.config.app store)
  if !entries.isEmpty then (send (.valueChanged entries) : m Unit)
  let values := currentValues store
  if !values.isEmpty then
    (send (.valueChanged (values.map .set)) : m Unit)
    let sequence ← (allocateSequence : m UInt32)
    (send (.subscribe sequence (values.map (·.id))) : m Unit)

def onDisconnected : m Unit := do
  (Completes.record .down : m Unit)
  let c ← (Completes.client : m (Client κ))
  (setConnection .disconnected : m Unit)
  (Station.adjust fun w => w.setConnected false : m Unit)
  if c.config.autoReconnect then
    if c.connection = .connected then (resync : m Unit)
    (Station.adjust Wire.arm : m Unit)

/-- Carries out a message. -/
def carryOut (message : Message) : m Unit := do
  (Completes.record (.began message) : m Unit)
  (Receiver.handle message : m Unit)
  (Completes.record (.ended message) : m Unit)

/-- Carries out every message that the bytes complete. -/
def onReceived (bytes : List UInt8) : m Unit := do
  let (messages, _) := (← (Completes.client : m (Client κ))).receive bytes
  (Completes.adjustClient fun c => (c.receive bytes).2 : m Unit)
  (Completes.record (.received bytes messages) : m Unit)
  messages.forM carryOut

/-- Acts on what the link tells. -/
def onLink : LinkEvent → m Unit
  | .connected => onConnected
  | .disconnected => onDisconnected
  | .received bytes => onReceived bytes

end

end Client

end ValueTree
