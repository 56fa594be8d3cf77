import ValueTree.Text.Utf8

/-!
# Text on a terminal

What a terminal shows of a text. Control characters do not show, and neither do the sequences that
steer the terminal. A sequence begins with the escape character, and a control can stand within it.
-/

namespace ValueTree.Terminal

/-! ## Characters -/

def isBetween (first last c : Char) : Bool := first ≤ c && c ≤ last

/-- A control that moves the place where the next character shows. -/
def isMove (c : Char) : Bool := c = '\t' || c = '\n' || c = '\x0c' || c = '\r'

/-- Neither a control nor the delete character. -/
def isGraphic (c : Char) : Bool := ' ' ≤ c && c ≠ '\x7f'

/-! ## Sequences -/

/-- Where a text stands within a sequence. -/
inductive Stage
  | outside
  /-- Behind the escape character. -/
  | escape
  /-- Behind marks that come before the last character of a short sequence. -/
  | marks
  /-- In a sequence with numbers. -/
  | numbers
  /-- At the head of a string for the device. -/
  | deviceHead
  /-- In the numbers of a string for the device. -/
  | deviceNumbers
  /-- In the marks of a string for the device. -/
  | deviceMarks
  /-- In a string that a bell ends. -/
  | command
  /-- In a string that has a terminator of its own. -/
  | string
deriving DecidableEq, Repr, Inhabited

namespace Stage

/-- Behind the escape character and one more. -/
def opened (c : Char) : Stage :=
  match c with
  | '[' => numbers
  | ']' => command
  | 'P' => deviceHead
  | 'X' | '^' | '_' => string
  | c =>
    if isBetween ' ' '/' c then marks
    else if isBetween '0' '~' c then outside
    else escape

/-- The byte that ends a string, also where it is a part of a character. -/
def terminator : UInt8 := 0x9c

/-- Behind one more character. Two controls end any sequence, and an escape begins another. -/
def next (s : Stage) (c : Char) : Stage :=
  if c = '\x18' || c = '\x1a' then outside
  else if c = '\x1b' then escape
  else
    match s with
    | outside => outside
    | escape => opened c
    | marks => if isBetween '0' '~' c then outside else marks
    | numbers => if isBetween '@' '~' c then outside else numbers
    | deviceHead =>
      if isBetween ' ' '/' c then deviceMarks
      else if isBetween '0' '?' c then deviceNumbers
      else if isBetween '@' '~' c then string
      else deviceHead
    | deviceNumbers =>
      if isBetween ' ' '/' c then deviceMarks
      else if isBetween '<' '~' c then string
      else deviceNumbers
    | deviceMarks => if isBetween '0' '~' c then string else deviceMarks
    | command => if c = '\x07' then outside else command
    | string => if (Utf8.encodeChar c).contains terminator then outside else string

/-- Whether controls have their effect here; in a string they have none. -/
def obeys : Stage → Bool
  | outside | escape | marks | numbers => true
  | _ => false

/-- Whether a character shows here. -/
def shows (s : Stage) (c : Char) : Bool :=
  if isMove c then s.obeys else s = outside && isGraphic c

end Stage

/-! ## Showing -/

/-- What shows of characters. Once one shows, all do up to the next control, even within a sequence.
From that control on the sequence goes on, unless a character beyond ASCII was shown. -/
def visible : (stage : Stage) → (showing : Bool) → List Char → List Char
  | _, _, [] => []
  | stage, showing, c :: cs =>
    if showing && Stage.outside.shows c then
      c :: visible (if c.toNat < 0x80 then stage else .outside) true cs
    else if stage.shows c then c :: visible (stage.next c) true cs
    else visible (stage.next c) false cs

/-- What a terminal shows of a text. -/
def shown (text : String) : String := String.ofList (visible .outside false text.toList)

end ValueTree.Terminal
