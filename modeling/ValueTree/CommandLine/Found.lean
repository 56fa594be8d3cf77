import ValueTree.CommandLine.Refusal
import ValueTree.Text.Similarity

/-!
# Reading command lines

The words are read one by one, and the first that does not fit ends the reading. What a switch or a
place was given is looked at when the next one is taken, so a fault in it can come after one behind
it.
-/

namespace ValueTree.CommandLine

/-- A part that was taken, with its words; a flag has none. -/
structure Entry where
  part : Part
  words : List String := []
deriving DecidableEq, Repr, Inhabited

/-- What was found, in order. -/
structure Found where
  entries : List Entry := []
  /-- The part taken last, as long as nobody looked at its words. -/
  pending : Option Entry := none
  /-- How many places are full. -/
  full : Nat := 0
deriving DecidableEq, Repr, Inhabited

/-- The words after the name of a verb. -/
structure Rest where
  verb : String
  words : List String
deriving DecidableEq, Repr, Inhabited

namespace Found

/-! ## Looking -/

def entry? (f : Found) (part : Part) : Option Entry := f.entries.find? (·.part = part)

def has (f : Found) (part : Part) : Bool := (f.entry? part).isSome

def taken (f : Found) : List Part := f.entries.map (·.part)

/-- The switches among what was found. -/
def switches (f : Found) : List Switch := f.taken.filterMap fun
  | .switch s => some s
  | .place _ => none

def hasSwitch (f : Found) (s : Switch) : Bool := f.has (.switch s)

/-- The value of a switch. -/
def value? (f : Found) (s : Switch) : Option String :=
  (f.entry? (.switch s)).bind (·.words.head?)

/-- The words in all places. -/
def places (f : Found) : List String := f.entries.flatMap fun
  | ⟨.place _, words⟩ => words
  | _ => []

/-! ## Taking -/

/-- Puts an entry behind the others, or its words behind those that are there. -/
def put (f : Found) (e : Entry) : Found :=
  if f.has e.part then
    let joined (old : Entry) : Entry :=
      if old.part = e.part then { old with words := old.words ++ e.words } else old
    { f with entries := f.entries.map joined }
  else { f with entries := f.entries ++ [e] }

/-- Takes an entry, and says what is wrong with it. What stands there twice is dropped. -/
def add (f : Found) (e : Entry) : Found × Option Refusal :=
  if f.has e.part && !e.part.isMany then
    ({ f with entries := f.entries.filter (·.part ≠ e.part) },
      some { cause := .repeated e.part.label, usage := .general })
  else (f.put e, (e.words.findSome? e.part.fault?).map fun cause => { cause })

/-- Looks at the words of the part that was taken last, and says what is wrong with them. -/
def settled (f : Found) : Found × Option Refusal :=
  match f.pending with
  | none => (f, none)
  | some e =>
    let rest := { f with pending := none }
    if e.words.isEmpty then (rest, some { cause := .missingValue e.part.label }) else rest.add e

def orRefuse : Found × Option Refusal → Except Ending Found
  | (f, none) => .ok f
  | (_, some why) => .error (.refused why)

def settle (f : Found) : Except Ending Found := orRefuse f.settled

/-- Takes a switch with all that belongs to it. -/
def take (f : Found) (s : Switch) (words : List String) : Except Ending Found := do
  let f ← f.settle
  match s.effect with
  | .help => throw .help
  | .version => throw .version
  | .keep => orRefuse (f.add ⟨.switch s, words⟩)

/-- Takes a switch whose value is the next word. -/
def await (f : Found) (s : Switch) : Except Ending Found :=
  f.settle.map fun f => { f with pending := some ⟨.switch s, []⟩ }

/-- Puts a word behind those of the part that was taken last. -/
def giveWord (f : Found) (word : String) : Found :=
  { f with pending := f.pending.map fun e => { e with words := e.words ++ [word] } }

/-! ## Words that do not fit -/

/-- The first verb among the words that has a switch with a similar name, and that name. -/
def elsewhere? (name : String) (verbs : List Verb) (words : List String) : Option Tip :=
  words.findSome? fun word => do
    let verb ← verbs.find? (·.name = word)
    let long ← Similarity.closest? name verb.longs
    some (.elsewhere verb.name ("--" ++ long))

/-- No switch has that name. One with a similar name counts as taken. -/
def unknownLong (f : Found) (v : Verb) (verbs : List Verb) (name : String) (rest : List String) :
    Refusal :=
  let f := f.settled.1
  let word := "--" ++ name
  let similar? : Option Switch := do
    let long ← Similarity.closest? name v.longs
    v.switches.find? (·.long = long)
  match similar? with
  | some s => {
      cause := .unknown word
      tip := some (.switch ("--" ++ s.long))
      usage := .behind (f.put ⟨.switch s, []⟩).taken }
  | none => {
      cause := .unknown word
      tip := (elsewhere? name verbs rest).or
        (if v.places.isEmpty then none else some (.asValue word))
      usage := .ofTaken f.taken }

def unknownShort (v : Verb) (letter : Char) : Refusal :=
  let word := String.ofList ['-', letter]
  { cause := .unknown word
    tip := if v.places.isEmpty then none else some (.asValue word)
    usage := .general }

/-- No place is left for a word; where verbs are known, it can only be one of those. -/
def strayWord (verbs : List Verb) (escaped : Bool) (word : String) : Refusal :=
  let names := verbs.map (·.name)
  if escaped && word ∈ names then
    { cause := .unknown word, tip := some (.withoutDashes word), usage := .general }
  else if verbs.isEmpty then { cause := .unknown word, usage := .general }
  else
    let similar := Similarity.among word names
    { cause := .unknownVerb word
      tip := if similar.isEmpty then none else some (.verbs similar)
      usage := .general }

/-! ## Reading -/

/-- Fills the next place with a word. -/
def readPlace (f : Found) (v : Verb) (verbs : List Verb) (escaped : Bool) (word : String) :
    Except Ending Found :=
  match v.places[f.full]? with
  | none => .error (.refused (strayWord verbs escaped word))
  | some place =>
    if place.many && f.pending.any (·.part = .place place) then .ok (f.giveWord word)
    else f.settle.map fun f => { f with
      pending := some ⟨.place place, [word]⟩
      full := if place.many then f.full else f.full + 1 }

/-- A long name, perhaps with a value behind it. Says whether the value has to follow. -/
def readLong (f : Found) (v : Verb) (verbs : List Verb) (name : String) (value : Option String)
    (rest : List String) : Except Ending (Found × Bool) :=
  match v.switches.find? (·.long = name), value with
  | none, _ => .error (.refused (f.unknownLong v verbs name rest))
  | some s, some value =>
    if s.isFlag then
      .error (.refused {
        cause := .unwantedValue s.label value
        usage := .choosing f.taken s })
    else (f.take s [value]).map (·, false)
  | some s, none => if s.isFlag then (f.take s []).map (·, false) else (f.await s).map (·, true)

/-- Letters of switches. What stands behind a switch with a value is the value, also behind an
equals sign. -/
def readShort (f : Found) (v : Verb) : List Char → Except Ending (Found × Bool)
  | [] => .ok (f, false)
  | c :: cs =>
    match v.switches.find? (·.short = some c) with
    | none => .error (.refused (unknownShort v c))
    | some s =>
      if s.isFlag then (f.take s []).bind fun f => f.readShort v cs
      else
        match cs with
        | [] => (f.await s).map (·, true)
        | '=' :: cs | cs => (f.take s [String.ofList cs]).map (·, false)

/-- Reads words one by one. A switch may wait for its value. The name of a verb, if it is known
here, ends the reading. -/
def read (v : Verb) (verbs : List Verb) :
    (waits : Bool) → List String → Found → Except Ending (Found × Option Rest)
  | _, [], f => .ok (f, none)
  | waits, word :: rest, f =>
    if !waits && verbs.any (·.name = word) then .ok (f, some ⟨word, rest⟩)
    else
      match Word.ofText word with
      | .escape => (rest.foldlM (fun (f : Found) => f.readPlace v verbs true) f).map (·, none)
      | .long name value =>
        (f.readLong v verbs name value rest).bind fun (f, waits) => read v verbs waits rest f
      | .short letters =>
        (f.readShort v letters).bind fun (f, waits) => read v verbs waits rest f
      | .plain =>
        if waits then read v verbs false rest (f.giveWord word)
        else (f.readPlace v verbs false word).bind (read v verbs false rest)

/-! ## The whole -/

/-- The first switch that does not go with another one. -/
def conflict? (f : Found) : Option Refusal :=
  f.switches.findSome? fun s => do
    let other ← f.switches.find? s.conflicts
    some {
      cause := .conflict s.label other.label
      usage := .behind (f.taken.filter (· ≠ .switch other)) }

/-- The places that have to be filled and are not. -/
def missing? (f : Found) (v : Verb) : Option Refusal :=
  let missing := (v.places.map Part.place).zip v.places |>.filter fun (part, place) =>
    place.required && !f.has part
  if missing.isEmpty then none
  else some {
    cause := .missing (missing.map (·.1.label))
    usage := .behind (f.taken ++ missing.map (·.1)) }

/-- Every switch goes with the others, and every place that has to be filled is. -/
def checked (f : Found) (v : Verb) : Except Ending Found := do
  let f ← f.settle
  match (f.conflict?).or (f.missing? v) with
  | some why => throw (.refused why)
  | none => pure f

end Found

end ValueTree.CommandLine
