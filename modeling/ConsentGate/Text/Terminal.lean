/-!
# Text on a terminal

What a terminal is sent is text with commands in it. A command is a control character, or a sequence
that an escape character opens: a control sequence, which a letter ends, or a string for the system
or for a device. A text without its commands can be read anywhere. Tabs and the ends of lines and
pages belong to the text. Inside a sequence of a few characters they suspend it: what follows them
is text up to the next control character, which goes on with the sequence.
-/

namespace ConsentGate.Text

/-- What a terminal takes the next character for. -/
inductive TerminalState where
  | text
  /-- The character behind an escape character. -/
  | escape
  /-- A sequence of an escape character and punctuation, up to a letter or digit. -/
  | designation
  /-- A control sequence: numbers and punctuation, up to a letter. -/
  | control
  /-- A string for the system, up to a bell. -/
  | system
  /-- The numbers in front of a string for a device. -/
  | deviceHeader
  /-- A string for a device, or for nobody. -/
  | device
  deriving DecidableEq

/-- A control character. -/
def isTerminalControl (c : Char) : Bool := c < ' ' || c == '\x7f'

/-- A control character that belongs to the text: a tab, or the end of a line or page. -/
def isLayout (c : Char) : Bool := c == '\t' || c == '\n' || c == '\x0c' || c == '\r'

/-- A control character that is a command, or a part of one. -/
def isCommand (c : Char) : Bool := isTerminalControl c && !isLayout c

/-- What the character behind an escape character opens. -/
def sequenceOf (c : Char) : TerminalState :=
  if c < '0' then .designation
  else
    match c with
    | '[' => .control
    | ']' => .system
    | 'P' => .deviceHeader
    | 'X' | '^' | '_' => .device
    | _ => .text

namespace TerminalState

/-- Whether tabs and the ends of lines and pages suspend a sequence, and are no part of it. -/
def isSuspendable : TerminalState → Bool
  | escape | designation | control => true
  | _ => false

/-- The state behind a character that is not shown. Two control characters cancel every sequence, an
escape character opens a new one, and a byte 9C in the encoding of a character ends a string for a
device. -/
def after (state : TerminalState) (c : Char) : TerminalState :=
  if c = '\x18' ∨ c = '\x1a' then text
  else if c = '\x1b' then escape
  else if isTerminalControl c then if state = system ∧ c = '\x07' then text else state
  else if c < '\x7f' then
    match state with
    | escape => sequenceOf c
    | designation => if c < '0' then designation else text
    | control => if c < '@' then control else text
    | deviceHeader => if c < '@' then deviceHeader else device
    | _ => state
  else if state = device ∧ 0x9C ∈ String.utf8EncodeChar c then text
  else state

end TerminalState

/-- The characters that a terminal shows, from a state on, which may be suspended. A character
beyond ASCII ends a suspended sequence for good. -/
def visibleFrom (suspended : Bool) (state : TerminalState) : List Char → List Char
  | [] => []
  | c :: rest =>
    if isCommand c then visibleFrom false (state.after c) rest
    else if suspended ∨ state = .text then
      c :: visibleFrom true (if c < '\x7f' then state else .text) rest
    else if isLayout c ∧ state.isSuspendable then c :: visibleFrom true state rest
    else visibleFrom false (state.after c) rest

/-- A text without the commands to a terminal in it. -/
def withoutCommands (s : String) : String := .ofList (visibleFrom false .text s.toList)

/-- A text in a style that has a number, and back to the usual style. -/
def styled (style : Nat) (s : String) : String :=
  "\x1b[" ++ toString style ++ "m" ++ s ++ "\x1b[0m"

end ConsentGate.Text
