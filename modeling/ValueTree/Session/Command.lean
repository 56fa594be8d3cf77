import ValueTree.Loader
import ValueTree.Sync.Client

/-!
# Session commands

What can be asked of a session, what it replies, and what it writes into its log. A command that
registers a callback brings the commands that the callback carries out.
-/

namespace ValueTree

/-! ## Commands -/

/-- Questions that a store answers. -/
inductive Query
  | value (id : Id)
  | has (id : Id)
  | kind (id : Id)
  | children (id : Id)
  | hasChildren (id : Id)
  | nearest (id : Id)
  | keys (id : Id)
  | schema (id : Id)
  | schemas
  | size
  | values
  | ids
deriving Repr, Inhabited

/-- What to do with the text of a fragment. -/
inductive FragmentCommand
  | load
  | unload
  | reload
  | declare
deriving DecidableEq, Repr, Inhabited

inductive LoaderCommand
  | attach (loader : Loader)
  | detach
  | trigger
  | status
  | run (action : LoaderAction) (path : String)
  | writeFile (path : String) (bytes : List UInt8)
  | makeDirectory (path : String)
  | deleteFile (path : String)
deriving Repr, Inhabited

/-- Commands to the part that stands between events and messages. -/
inductive ReceiverCommand
  | app
  | insertFilter (root : Id)
  | eraseFilter (root : Id)
  | hasFilter (root : Id)
  | hides (id : Id)
  | isOwn (id : Id)
  | update (update : Update)
  | handle (message : Message)
  | outbound (event : Event)
deriving Repr, Inhabited

/-- Requests with a completion. -/
inductive Request
  | subscribe (ids : List Id)
  | subscribeAll
  | multiGet (ids : List Id)
  | multiSet (values : List Value)
deriving Repr, Inhabited

inductive ClientCommand
  | start
  | shutdown
  | unsubscribeAll
  | cancel (sequence : UInt32)
  | register (root : Id)
  | owner (id : Id)
  | drop
deriving Repr, Inhabited

/-- Commands to the agenda and the link. -/
inductive WireCommand
  | run
  | fire
  | armed
  | reachable (reachable : Bool)
  | lose
  | connect
  | close
  | attempts
  | sent
  | frames
  /-- Bytes come in, in pieces of a size if one is given. -/
  | inject (bytes : List UInt8) (chunk : Option Nat) (run : Bool)
deriving Repr, Inhabited

inductive Command
  /-- A command with an id that is none. -/
  | invalid (fault : Id.Fault)
  | query (query : Query)
  | change (change : Change)
  | observe (name : String) (only : Option Id) (reaction : List Command) (limit : Nat)
  | unobserve (name : String)
  | fragment (command : FragmentCommand) (text : String)
  | loader (command : LoaderCommand)
  | receiver (command : ReceiverCommand)
  | request (request : Request) (tag : String) (reaction : List Command) (limit : Nat)
  | client (command : ClientCommand)
  | wire (command : WireCommand)
deriving Inhabited

/-! ## Replies -/

inductive Reply
  | nothing
  | bool (b : Bool)
  | bools (bs : List Bool)
  | nat (n : Nat)
  | nats (ns : List Nat)
  | text (s : String)
  | texts (items : List String)
  | id (id : Id)
  | ids (ids : List Id)
  | size (n : Nat)
  | kind (kind : Kind)
  | value (value : Value)
  | values (values : List Value)
  | schema (schema : Schema)
  | status (status : SetStatus)
  | loadStatus (status : LoadStatus)
  | attached (loader : Loader)
  | message (message : Message)
  | messages (messages : List Message)
  | frames (frames : List (List UInt8))
  | owner (config : ClientConfig) (has : Bool)
  | storeError (error : StoreError)
  | schemaError (error : SchemaError)
  | syncError (error : SyncError)
deriving Inhabited

namespace Reply

def ofOption {α : Type} (reply : α → Reply) : Option α → Reply
  | some a => reply a
  | none => nothing

def ofStore {α : Type} (reply : α → Reply) : Except StoreError α → Reply
  | .ok a => reply a
  | .error e => storeError e

def ofAnswer : Answer → Reply
  | .status s => status s
  | .bool changed => bool changed
  | .declared => nothing
  | .dropped schema? => ofOption schema schema?

def ofSync {α : Type} (reply : α → Reply) : Except SyncError α → Reply
  | .ok a => reply a
  | .error e => syncError e

def ofSchema {α : Type} (reply : α → Reply) : Except SchemaError α → Reply
  | .ok a => reply a
  | .error e => schemaError e

end Reply

/-! ## Log -/

inductive LogEntry
  /-- The main observer heard of an event. -/
  | event (event : Event)
  /-- Another observer did. -/
  | heard (name : String) (event : Event)
  /-- A callback carried out a command. -/
  | within (name : String) (reply : Reply)
  | completed (tag : String) (ok : Bool)
  | result (sequence : UInt32) (ok : Bool)
deriving Inhabited

end ValueTree
