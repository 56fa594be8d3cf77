import ValueTree.CommandLine.Authority
import ValueTree.CommandLine.Failure
import ValueTree.CommandLine.Invocation

/-!
# The command line

The program checks fragment files, and it reads, writes, and watches values of an authority. What it
leaves behind is a code, two texts, and a log.
-/

namespace ValueTree.CommandLine

/-- What a run of the program leaves behind. -/
structure Report where
  code : Nat := 0
  output : String := ""
  errors : String := ""
  log : List String := []
  /-- What the authority received and answered. -/
  received : List Message := []
deriving Repr, Inhabited

namespace Report

def failed (failure : Failure) (received : List Message) : Report :=
  { code := 1, errors := "Error: " ++ failure.message ++ "\n", received }

end Report

/-! ## Checking fragments -/

/-- What a fragment holds, line by line. -/
def summary (path : String) (fragment : Fragment) (store : Store) : String :=
  let container (schema : Schema) : String :=
    "  container " ++ schema.id.toText ++ " (" ++ schema.order.inspect ++ ", " ++
      toString schema.template.length ++ " template entries)\n"
  path ++ ": ok\n" ++ String.join (store.schemas.map container) ++ "  " ++
    toString fragment.values.length ++ " values\n"

/-- A fragment is sound if an empty store takes it. -/
def check (path : String) (content : Except FileFault String) : Except Failure String := do
  let fragment ← (Fragment.ofContent path content).mapError .schema
  let store ← fragment.alone.mapError fun e => .schema (.store e)
  pure (summary path fragment store)

/-! ## Requests -/

def parseId (text : String) : Except Failure Id :=
  (Id.parse text).mapError fun fault => .store (.invalidId fault)

def parsePayload (text : String) : Except Failure Payload :=
  (Json.parse Payload.fromJson text).mapError .payload

/-- Makes a request and waits for the answer. Without any time to wait there is none. -/
def exchange (config : ClientConfig) (authority : Option Authority) (timeout : Nat)
    (request : Request) : Except Failure Bool × List Message × Session :=
  let reachable := authority.any (·.isAt config.endpoint)
  let answers := if timeout = 0 then [] else (authority.map (·.answers)).getD []
  let asked := startClient config reachable |> ask request
  let (received, s) := converse (fun s => (answered? s).isSome) answers [] asked
  match answered? s with
  | some ok => (.ok ok, received, s)
  | none => (.error (.silence timeout), received, s)

/-- The lines for some values of a store, if the authority gave them. -/
def values (ok : Bool) (s : Store) (ids : List Id) : String :=
  let line (id : Id) : String :=
    match s.get? id with
    | some value => if ok then value.toJson.write else id.toText ++ ": not found"
    | none => id.toText ++ ": not found"
  String.join (ids.map fun id => line id ++ "\n")

def getValues (config : ClientConfig) (authority : Option Authority) (timeout : Nat)
    (ids : List Id) : Report :=
  match exchange config authority timeout (.multiGet ids) with
  | (.error failure, received, _) => .failed failure received
  | (.ok ok, received, s) => { output := values ok s.store ids, received }

def setValue (config : ClientConfig) (authority : Option Authority) (timeout : Nat)
    (value : Value) : Report :=
  match exchange config authority timeout (.multiSet [value]) with
  | (.error failure, received, _) => .failed failure received
  | (.ok false, received, _) => .failed (.refusal value.id) received
  | (.ok true, received, _) => { output := value.id.toText ++ ": written\n", received }

/-! ## Watching -/

inductive Level
  | info
  | warn

def Level.name : Level → String
  | .info => "INFO"
  | .warn => "WARN"

/-- A line of the log, with its fields behind the message. -/
def logLine (level : Level) (message : String) (fields : List (String × String)) : String :=
  level.name ++ " vstore::commands::watch: " ++
    String.intercalate " " (message :: fields.map fun (name, content) => name ++ "=" ++ content)

def originField : Origin → String × String
  | .local => ("provenance", "Local")
  | .remote => ("provenance", "Remote")

def valueFields (value : Value) (origin : Origin) : List (String × String) :=
  [("id", value.id.toText), ("data", value.payload.inspect), originField origin]

def keyFields (container : Id) (key : String) (origin : Origin) : List (String × String) :=
  [("container", container.toText), ("key", key), originField origin]

def eventLine : Event → String
  | .added value origin => logLine .info "added" (valueFields value origin)
  | .changed value origin => logLine .info "changed" (valueFields value origin)
  | .removed id _ origin => logLine .info "removed" [("id", id.toText), originField origin]
  | .keyAdded container key origin => logLine .info "key added" (keyFields container key origin)
  | .keyRemoved container key origin => logLine .info "key removed" (keyFields container key origin)

/-- The line for an entry in the log of a session, if there is one. -/
def entryLine? : LogEntry → Option String
  | .event event => some (eventLine event)
  | .completed _ true => some (logLine .info "subscribed" [])
  | .completed _ false => some (logLine .warn "subscription refused" [])
  | _ => none

/-- What to subscribe to, if to anything. -/
def subscription? (all : Bool) (ids : List Id) : Option Request :=
  if all then some .subscribeAll
  else if ids.isEmpty then none
  else some (.subscribe ids)

/-- Logs what happens, as long as the authority has something to say. -/
def watchValues (config : ClientConfig) (authority : Option Authority) (all : Bool)
    (ids : List Id) : Report :=
  let started := startClient config (authority.any (·.isAt config.endpoint))
  let (first, asked) := match subscription? all ids with
    | some request => ([], ask request started)
    | none =>
      ([logLine .warn "nothing to subscribe to; logging local changes only" []], started)
  let (received, s) := converse (fun _ => false) ((authority.map (·.answers)).getD []) [] asked
  { log := first ++ s.log.filterMap entryLine?, received }

/-! ## Running -/

def reported : Except Failure Report → Report
  | .ok report => report
  | .error failure => .failed failure []

/-- Does what is asked, given how the text of a file is read. -/
def carryOut (read : String → Except FileFault String) (authority : Option Authority)
    (invocation : Invocation) : Report :=
  let config : ClientConfig := { app := invocation.app, endpoint := invocation.endpoint }
  match invocation.task with
  | .checkFragment path => reported do
    let output ← check path (read path)
    pure { output }
  | .get timeout ids => reported do
    let ids ← ids.mapM parseId
    pure (getValues config authority timeout ids)
  | .set timeout id data => reported do
    let id ← parseId id
    let payload ← parsePayload data
    pure (setValue config authority timeout { id, payload })
  | .watch all ids => reported do
    let ids ← ids.mapM parseId
    pure (watchValues config authority all ids)

/-- Runs the program on the words of its command line. -/
def run (read : String → Except FileFault String) (authority : Option Authority)
    (words : List String) : Report :=
  match Invocation.parse words with
  | .ok invocation => carryOut read authority invocation
  | .error (.shown text) => { output := text }
  | .error (.refused text) => { code := 2, errors := text }

end ValueTree.CommandLine
