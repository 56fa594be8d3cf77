import ValueTree.Session.Run

/-!
# The authority

An authority with its answers ready. It answers each message that comes in, and it may close the
connection afterwards, upon which the client connects again.
-/

namespace ValueTree.CommandLine

/-- What the authority sends when a message has come in. -/
structure Answer where
  messages : List Message := []
  framing : Framing := .marked
  /-- The connection is closed afterwards, and the next one is taken. -/
  closes : Bool := false
deriving Repr, Inhabited

structure Authority where
  /-- Where it listens, if a path leads there. -/
  path? : Option String
  /-- The files around it. -/
  files : FileTree := {}
  /-- One answer for each message, in order. -/
  answers : List Answer
deriving Repr, Inhabited

namespace Authority

/-- How many bytes the path to a socket may have. -/
def pathLimit : Nat := 107

/-- Only a path leads to an authority, and it may be written in more than one way. -/
def isAt (a : Authority) : Endpoint → Bool
  | .tcp _ => false
  | .unix path => path.utf8ByteSize ≤ pathLimit && a.path?.any (a.files.leadsTo path)

end Authority

/-! ## Sessions with an authority -/

/-- Carries out a command whose reply does not matter. -/
def perform (command : Command) (s : Session) : Session := (s.step command).2

/-- A client that was just started. -/
def startClient (config : ClientConfig) (reachable : Bool) : Session :=
  ((Session.fresh {}).seatClient config) |> perform (.wire (.reachable reachable))
    |> perform (.client .start)

/-- Sends a request, now or when there is a connection. -/
def ask (request : Request) (s : Session) : Session :=
  s |> perform (.request request "" [] 0) |> perform (.wire .run)

/-- What became of the request, if it was answered. -/
def answered? (s : Session) : Option Bool :=
  s.log.findSome? fun
    | .completed _ ok => some ok
    | _ => none

/-- Takes what the client sent. -/
def takeSent (s : Session) : List Message × Session :=
  let (messages, link) := s.wire.link.takeMessages
  (messages.toOption.getD [], { s with wire := { s.wire with link } })

/-- The connection goes with everything that was under way, and the client connects again. -/
def reconnect (s : Session) : Session :=
  let lost := s |> perform (.wire .lose) |> perform (.wire .run)
  perform (.wire .fire) (takeSent lost).2

/-- Gives an answer. -/
def hear (answer : Answer) (s : Session) : Session :=
  let bytes := answer.messages.flatMap (·.framed answer.framing)
  let heard := perform (.wire (.inject bytes none true)) s
  if answer.closes then reconnect heard else heard

/-- Answers messages until no answer is left, or none comes in, or the session is over. Gives the
messages that got an answer. -/
def converse (isOver : Session → Bool) :
    List Answer → (waiting : List Message) → Session → List Message × Session
  | [], _, s => ([], s)
  | answer :: rest, waiting, s =>
    let (sent, s) := takeSent s
    match waiting ++ sent with
    | [] => ([], s)
    | message :: waiting =>
      let s := hear answer s
      if isOver s then ([message], s)
      else
        let (received, s) := converse isOver rest (if answer.closes then [] else waiting) s
        (message :: received, s)

end ValueTree.CommandLine
