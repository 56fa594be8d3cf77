import ValueTree.CommandLine.Grammar
import ValueTree.Text.Terminal

/-!
# Refusals

Why a command line is refused, what could have been meant, and which usage is shown with it. Of the
words themselves a refusal repeats what a terminal shows.
-/

namespace ValueTree.CommandLine

/-- What the words of a verb go to. -/
inductive Part
  | switch (s : Switch)
  | place (p : Place)
deriving DecidableEq, Repr, Inhabited

/-- Why a command line is refused. -/
inductive Cause
  | unknown (word : String)
  | unknownVerb (word : String)
  | noVerb (program : String) (known : List String)
  | missingValue (label : String)
  | unwantedValue (label value : String)
  | wrongValue (label value reason : String)
  | repeated (label : String)
  | conflict (label other : String)
  | missing (labels : List String)
deriving DecidableEq, Repr, Inhabited

/-- A word between single quotes. -/
def named (word : String) : String := "'" ++ Terminal.shown word ++ "'"

def Cause.message : Cause → String
  | unknown word => "unexpected argument " ++ named word ++ " found"
  | unknownVerb word => "unrecognized subcommand " ++ named word
  | noVerb program known =>
    "'" ++ program ++ "' requires a subcommand but one was not provided\n  [subcommands: " ++
      String.intercalate ", " known ++ "]"
  | missingValue label => "a value is required for '" ++ label ++ "' but none was supplied"
  | unwantedValue label value =>
    "unexpected value " ++ named value ++ " for '" ++ label ++ "' found; no more were expected"
  | wrongValue label value reason =>
    "invalid value " ++ named value ++ " for '" ++ label ++ "': " ++ reason
  | repeated label => "the argument '" ++ label ++ "' cannot be used multiple times"
  | conflict label other =>
    "the argument '" ++ label ++ "' cannot be used with '" ++ other ++ "'"
  | missing labels => "the following required arguments were not provided:" ++
      String.join (labels.map ("\n  " ++ ·))

/-- What could have been meant. -/
inductive Tip
  | switch (label : String)
  | verbs (names : List String)
  /-- Another verb has the switch. -/
  | elsewhere (verb label : String)
  /-- The word can be had as a value. -/
  | asValue (word : String)
  /-- A verb does not stand behind two dashes. -/
  | withoutDashes (verb : String)
deriving DecidableEq, Repr, Inhabited

def Tip.message : Tip → String
  | switch label => "a similar argument exists: '" ++ label ++ "'"
  | verbs names =>
    let named := String.intercalate ", " (names.map fun name => "'" ++ name ++ "'")
    if names.length = 1 then "a similar subcommand exists: " ++ named
    else "some similar subcommands exist: " ++ named
  | elsewhere verb label => "'" ++ verb ++ " " ++ label ++ "' exists"
  | asValue word => "to pass " ++ named word ++ " as a value, use " ++ named ("-- " ++ word)
  | withoutDashes verb =>
    "subcommand '" ++ verb ++ "' exists; to use it, remove the '--' before it"

/-- The usage that is shown with a refusal. -/
inductive Usage
  | hidden
  /-- Whatever the verb takes. -/
  | general
  /-- What was taken so far, and what has to follow. -/
  | behind (taken : List Part)
  /-- What was taken so far, and one more switch. If something that the verb has of its own was
  taken, all of that stands together as one choice. -/
  | choosing (taken : List Part) (last : Switch)
deriving DecidableEq, Repr, Inhabited

/-- With nothing taken so far. -/
def Usage.ofTaken (taken : List Part) : Usage := if taken.isEmpty then general else behind taken

structure Refusal where
  cause : Cause
  tip : Option Tip := none
  usage : Usage := .hidden
deriving DecidableEq, Repr, Inhabited

/-- How the reading ends before the last word. -/
inductive Ending
  | help
  | version
  | refused (why : Refusal)
deriving DecidableEq, Repr, Inhabited

/-- What a verb has of its own, and all of its places. -/
def Verb.choice (v : Verb) : List Part := v.own.map Part.switch ++ v.places.map Part.place

namespace Part

/-- The name among others to choose from. -/
def alternative : Part → String
  | switch s => s.label
  | place p => p.name

def label : Part → String
  | switch s => s.label
  | place p => p.labelAs true

/-- Whether it may be taken more than once. -/
def isMany : Part → Bool
  | switch _ => false
  | place p => p.many

def kind : Part → ValueKind
  | switch s => (s.value.map (·.2)).getD .text
  | place p => p.kind

/-- What is wrong with a word for this part. -/
def fault? (part : Part) (word : String) : Option Cause :=
  match part.kind with
  | .text => none
  | .path => if word = "" then some (.missingValue part.label) else none
  | .number =>
    match ValueKind.number? word with
    | .ok _ => none
    | .error fault => some (.wrongValue part.label word fault.message)
  | .address =>
    if (SocketAddress.parse? word).isSome then none
    else some (.wrongValue part.label word "invalid socket address syntax")

end Part

end ValueTree.CommandLine
