import ValueTree.Message
import ValueTree.Store.Host
import ValueTree.Sync.Filter

/-!
# From messages to changes

Messages of the authority are carried out on a store, as changes from the other end. What one update
cannot do is passed over, and the next one is tried.
-/

namespace ValueTree

/-- A host that takes messages: it has a filter, and it is told of each result once its values are
in place. -/
class Receiver (m : Type → Type) extends Host m where
  filter : m Filter
  adjustFilter (f : Filter → Filter) : m Unit
  answered (sequence : UInt32) (ok : Bool) : m Unit

namespace Receiver

variable {m : Type → Type} [Monad m] [Receiver m]

/-- Whether a change went through. -/
def went {α : Type} (result : Except StoreError α) : Bool := result.toBool

/-- Takes over a value. The containers and structures that are there stay as they are. -/
def applyValue (value : Value) : m Bool := do
  let filter ← Receiver.filter
  let store ← (Host.store : m Store)
  if filter.hides store value.id then pure false
  else if ((store.kind? value.id).map Kind.isStructural).getD false then pure true
  else pure (went (← Host.setValue value .remote))

/-- Carries out an update, and says whether it went through. -/
def applyUpdate : Update → m Bool
  | .set value => applyValue value
  | .addKey container key => do pure (went (← Host.addKey container key .remote))
  | .removeKey container key => do pure (went (← Host.removeKey container key .remote))

/-- Removes an id, with its token if one came along. -/
def applyRemoval (id : Id) (token? : Option Token) : m Unit := do
  let _ ← match token? with
    | some token => (Host.removeWithToken id token .remote : m (Except StoreError Bool))
    | none => Host.remove id .remote

/-- Each id with the token at the same place, as far as there are tokens. -/
def pairTokens : List Id → List Token → List (Id × Option Token)
  | [], _ => []
  | id :: ids, [] => (id, none) :: pairTokens ids []
  | id :: ids, token :: tokens => (id, some token) :: pairTokens ids tokens

/-- A success brings values, and a failure to find them brings what is not there. -/
def applyResult (status : Status) (values : List Value) : m Unit :=
  match status with
  | .success => values.forM fun value => do
    let _ ← (applyValue value : m Bool)
  | .notFound => values.forM fun value => do
    let _ ← (Host.remove value.id .remote : m (Except StoreError Bool))
  | .other _ => pure ()

/-- Carries out a message. Requests are not for a receiver. -/
def handle : Message → m Unit
  | .valueChanged updates => updates.forM fun update => do
    let _ ← (applyUpdate update : m Bool)
  | .valueRemoved ids tokens =>
    (pairTokens ids tokens).forM fun (id, token?) => applyRemoval id token?
  | .result sequence status values => do
    applyResult status values
    Receiver.answered sequence status.isSuccess
  | .subscribe .. | .unsubscribe _ | .multiGet .. | .multiSet .. | .syncCompleted => pure ()

end Receiver

/-! ## Without observers -/

/-- A receiver that nobody else acts on, with the results that it was told of. -/
structure Mirror where
  filter : Filter
  quiet : Quiet := {}
  results : List (UInt32 × Bool) := []
deriving Repr, Inhabited

namespace Mirror

instance : Receiver (StateM Mirror) where
  store := do pure (← get).quiet.store
  change step := fun r =>
    let (result, quiet) := r.quiet.accept (step r.quiet.store)
    (result, { r with quiet })
  filter := do pure (← get).filter
  adjustFilter f := modify fun r => { r with filter := f r.filter }
  answered sequence ok := modify fun r => { r with results := r.results ++ [(sequence, ok)] }

/-- Carries out messages one after the other. -/
def receive (r : Mirror) (messages : List Message) : Mirror :=
  messages.foldl (fun r message => ((Receiver.handle message : StateM Mirror Unit).run r).2) r

end Mirror

end ValueTree
