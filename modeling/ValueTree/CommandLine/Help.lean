import ValueTree.CommandLine.Refusal

/-!
# Help

What a program says of its verbs, and of a command line that it refuses.
-/

namespace ValueTree.CommandLine

/-! ## Tables -/

/-- A text with blanks behind it up to a width. -/
def pad (width : Nat) (text : String) : String :=
  text ++ String.ofList (List.replicate (width - text.length) ' ')

/-- Names in one column and what they mean in the next. -/
def table (rows : List (String × String)) : String :=
  let width := (rows.map (·.1.length)).foldl max 0
  String.join (rows.map fun (name, about) => "  " ++ pad width name ++ "  " ++ about ++ "\n")

/-- A table under a heading, unless there is nothing in it. -/
def titled (heading : String) (rows : List (String × String)) : String :=
  if rows.isEmpty then "" else "\n" ++ heading ++ ":\n" ++ table rows

/-- The name with room for a letter before it. -/
def Switch.row (s : Switch) : String × String :=
  let letter := match s.short with
    | some c => String.ofList ['-', c] ++ ", "
    | none => "    "
  let preset := match s.preset with
    | some value => " [default: " ++ value ++ "]"
    | none => ""
  (letter ++ s.label, s.about ++ preset)

def Place.row (p : Place) : String × String := (p.label, p.about)

def Verb.row (v : Verb) : String × String := (v.name, v.about)

/-! ## Programs -/

/-- A program with verbs. -/
structure Program where
  /-- What stands before the name of a verb. -/
  self : Verb
  version : String
  verbs : List Verb
deriving Repr, Inhabited

/-- Where in a program something is said: at a verb, or before it. -/
structure Spot where
  verb : Verb
  /-- What leads there. -/
  names : List String
  /-- The verbs that can follow. -/
  verbs : List Verb
deriving Repr, Inhabited

namespace Program

def spot (p : Program) : Option Verb → Spot
  | none => ⟨p.self, [p.self.name], p.verbs⟩
  | some v => ⟨v, [p.self.name, v.name], []⟩

def versionText (p : Program) : String := p.self.name ++ " " ++ p.version ++ "\n"

end Program

namespace Spot

/-- The names, then what can follow. -/
def usageWith (s : Spot) (parts : List String) : String :=
  let command := if s.verbs.isEmpty then [] else ["<COMMAND>"]
  String.intercalate " " (s.names ++ parts ++ command)

/-- How a verb is used. -/
def usage (s : Spot) : String :=
  let switches := if s.verb.switches.isEmpty then [] else ["[OPTIONS]"]
  s.usageWith (switches ++ s.verb.places.map Place.label)

/-- The labels of switches among some parts. -/
def switchLabels (parts : List Part) : List String := parts.filterMap fun
  | .switch s => some s.label
  | .place _ => none

/-- How a verb is used if some parts are taken: those are shown in place of all switches. -/
def usageBehind (s : Spot) (taken : List Part) : String :=
  let place (p : Place) : String := p.labelAs (p.required || .place p ∈ taken)
  s.usageWith (switchLabels taken ++ s.verb.places.map place)

/-- The same with all that the verb has of its own as one choice behind the other switches. -/
def usageChoosing (s : Spot) (taken : List Part) : String :=
  let others := taken.filter (· ∉ s.verb.choice)
  let choice := "<" ++ String.intercalate "|" (s.verb.choice.map Part.alternative) ++ ">"
  s.usageWith (switchLabels others ++ [choice])

def usage? (s : Spot) : Usage → Option String
  | .hidden => none
  | .general => some s.usage
  | .behind taken => some (s.usageBehind taken)
  | .choosing taken last =>
    let all := if .switch last ∈ taken then taken else taken ++ [.switch last]
    some (if taken.any (· ∈ s.verb.choice) then s.usageChoosing all else s.usageBehind all)

def helpText (s : Spot) : String :=
  s.verb.about ++ "\n\nUsage: " ++ s.usage ++ "\n" ++ titled "Commands" (s.verbs.map Verb.row) ++
    titled "Arguments" (s.verb.places.map Place.row) ++
    titled "Options" (s.verb.switches.map Switch.row)

/-- The whole message of a refusal. It points to the help that can be had there. -/
def report (s : Spot) (r : Refusal) : String :=
  let tip := match r.tip with
    | some tip => "\n\n  tip: " ++ tip.message
    | none => ""
  let usage := match s.usage? r.usage with
    | some usage => "\n\nUsage: " ++ usage
    | none => ""
  let help :=
    if s.verb.switches.any (·.effect = .help) then "\n\nFor more information, try '--help'." else ""
  "error: " ++ r.cause.message ++ tip ++ usage ++ help ++ "\n"

end Spot

end ValueTree.CommandLine
