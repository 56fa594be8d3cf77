import ValueTree.CommandLine.Found
import ValueTree.CommandLine.Help
import ValueTree.Sync.Config

/-!
# Invocations

The verbs of the program, and what a command line asks of it.
-/

namespace ValueTree.CommandLine

/-! ## The program -/

def Switch.tcp : Switch := {
  long := "tcp"
  value := some ("HOST:PORT", .address)
  about := "Authority stream-socket address"
  excludes := some "unix" }

def Switch.unix : Switch := {
  long := "unix"
  value := some ("PATH", .path)
  about := "Authority local-domain socket path" }

def Switch.app : Switch := {
  long := "app"
  short := some 'a'
  value := some ("APP", .text)
  about := "Application name used as this client's key under shared roots"
  preset := some "vstore-cli" }

def Switch.verbose : Switch := {
  long := "verbose"
  short := some 'v'
  about := "Enable verbose output" }

def Switch.help : Switch := {
  long := "help"
  short := some 'h'
  about := "Print help"
  effect := .help }

def Switch.version : Switch := {
  long := "version"
  short := some 'V'
  about := "Print version"
  effect := .version }

def Switch.timeout : Switch := {
  long := "timeout"
  short := some 't'
  value := some ("TIMEOUT", .number)
  about := "Seconds to wait for the authority"
  preset := some "5" }

def Switch.subscribeAll : Switch := {
  long := "subscribe-all"
  about := "Subscribe to the whole tree, lifting the shared-root filters" }

/-- The switches that may stand before the verb as well as behind it. -/
def Switch.everywhere : List Switch := [tcp, unix, app, verbose]

def Verb.watch : Verb := {
  name := "watch"
  about := "Subscribe and log every change until Ctrl-C"
  switches := .subscribeAll :: Switch.everywhere ++ [.help]
  own := [.subscribeAll]
  places := [{
    name := "IDS"
    required := false
    many := true
    about := "Subtree roots to subscribe to" }] }

def Verb.get : Verb := {
  name := "get"
  about := "Read values once and print them as JSON"
  switches := .timeout :: Switch.everywhere ++ [.help]
  own := [.timeout]
  places := [{ name := "IDS", many := true, about := "Values to read" }] }

def Verb.set : Verb := {
  name := "set"
  about := "Write one value"
  switches := .timeout :: Switch.everywhere ++ [.help]
  own := [.timeout]
  places := [
    { name := "ID", about := "Value to write" },
    { name := "DATA", about := "Payload as JSON, e.g. '\x7b\"text\":\"hello\"\x7d'" }] }

def Verb.checkFragment : Verb := {
  name := "check-fragment"
  about := "Validate a schema fragment file"
  switches := Switch.everywhere ++ [.help]
  places := [{ name := "FILE", kind := .path, about := "Fragment file" }] }

/-- Help as a verb: it names the verb to tell about. -/
def Verb.help : Verb := {
  name := "help"
  about := "Print this message or the help of the given subcommand(s)"
  places := [{
    name := "COMMAND"
    required := false
    many := true
    about := "Print help for the subcommand(s)" }] }

def Program.this : Program := {
  self := {
    name := "vstore"
    about := "Command-line microservice client for vstore"
    switches := Switch.everywhere ++ [.help, .version]
    own := Switch.everywhere }
  version := "0.4.0"
  verbs := [.watch, .get, .set, .checkFragment, .help] }

/-! ## What is asked -/

inductive Task
  | watch (all : Bool) (ids : List String)
  /-- The time to wait is in seconds. -/
  | get (timeout : Nat) (ids : List String)
  | set (timeout : Nat) (id data : String)
  | checkFragment (path : String)
deriving DecidableEq, Repr, Inhabited

structure Invocation where
  app : String
  endpoint : Endpoint
  task : Task
deriving DecidableEq, Repr

/-- Where the program stops before it does anything. -/
inductive Halt
  /-- Something was to be shown. -/
  | shown (text : String)
  | refused (text : String)
deriving DecidableEq, Repr, Inhabited

/-! ## Reading -/

/-- What ends the reading at a verb, or before it. -/
def Ending.halt (spot : Spot) : Ending → Halt
  | .help => .shown spot.helpText
  | .version => .shown Program.this.versionText
  | .refused why => .refused (spot.report why)

/-- The words after `help` name a verb; no verb has verbs of its own. -/
def helpFor : List String → Spot → Halt
  | [], spot => .shown spot.helpText
  | word :: rest, spot =>
    match spot.verbs.find? (·.name = word) with
    | some verb => helpFor rest (Program.this.spot (some verb))
    | none => .refused (spot.report { cause := .unknownVerb word, usage := .general })

/-- The value of a switch: behind the verb, before it, or the one it has anyway. -/
def valueOf (s : Switch) (before behind : Found) : Option String :=
  (behind.value? s).or ((before.value? s).or s.preset)

/-- A path goes before an address. -/
def endpointOf (before behind : Found) : Endpoint :=
  match valueOf .unix before behind with
  | some path => .unix path
  | none =>
    match (valueOf .tcp before behind).bind SocketAddress.parse? with
    | some address => .tcp address
    | none => .default

def taskOf (verb : Verb) (before behind : Found) : Task :=
  let wait := ((valueOf .timeout before behind).bind fun word =>
    (ValueKind.number? word).toOption).getD 0
  let place (n : Nat) : String := (behind.places[n]?).getD ""
  if verb.name = Verb.watch.name then .watch (behind.hasSwitch .subscribeAll) behind.places
  else if verb.name = Verb.get.name then .get wait behind.places
  else if verb.name = Verb.set.name then .set wait (place 0) (place 1)
  else .checkFragment (place 0)

/-- What no verb stands behind. Without a single word, the help takes the place of a refusal. -/
def withoutVerb (before : Found) : Halt :=
  let spot := Program.this.spot none
  if before.entries.isEmpty then .refused spot.helpText
  else .refused (spot.report {
    cause := .noVerb spot.verb.name (spot.verbs.map (·.name))
    usage := .general })

namespace Invocation

/-- Reads the words before a verb, those behind it, and then looks back at those before it. -/
def parse (words : List String) : Except Halt Invocation := do
  let top := Program.this.spot none
  let (before, rest?) ← (Found.read top.verb top.verbs false words {}).mapError (Ending.halt top)
  let verb? := rest?.bind fun rest => top.verbs.find? (·.name = rest.verb)
  match rest?, verb? with
  | some rest, some verb =>
    let spot := Program.this.spot (some verb)
    if verb.name = Verb.help.name then throw (helpFor rest.words top)
    else
      let (behind, _) ← (Found.read verb [] false rest.words {}).mapError (Ending.halt spot)
      let behind ← (behind.checked verb).mapError (Ending.halt spot)
      let before ← (before.checked top.verb).mapError (Ending.halt top)
      pure {
        app := (valueOf .app before behind).getD ""
        endpoint := endpointOf before behind
        task := taskOf verb before behind }
  | _, _ => throw (withoutVerb (← before.settle.mapError (Ending.halt top)))

end Invocation

end ValueTree.CommandLine
