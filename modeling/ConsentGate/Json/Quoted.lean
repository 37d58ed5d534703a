import ConsentGate.Text.Hex

/-!
# Quoted strings

A quoted string is held as it is written: a list of pieces, each a plain character, a short escape
or a four-digit escape. Four-digit escapes are UTF-16 code units, so that a character beyond the
first plane takes two of them, and one alone of such a pair denotes no text.

Results:

* `Quoted.text?_ofText`: what is written for a text reads as the text.
-/

namespace ConsentGate

/-- A two-character escape. -/
inductive Escape where
  | quote
  | backslash
  | slash
  | backspace
  | formFeed
  | lineFeed
  | carriageReturn
  | tab
  deriving DecidableEq

namespace Escape

/-- Every short escape. -/
def all : List Escape :=
  [quote, backslash, slash, backspace, formFeed, lineFeed, carriageReturn, tab]

/-- The letter after the backslash. -/
def letter : Escape → Char
  | quote => '"'
  | backslash => '\\'
  | slash => '/'
  | backspace => 'b'
  | formFeed => 'f'
  | lineFeed => 'n'
  | carriageReturn => 'r'
  | tab => 't'

/-- The character that an escape denotes. -/
def char : Escape → Char
  | quote => '"'
  | backslash => '\\'
  | slash => '/'
  | backspace => '\x08'
  | formFeed => '\x0c'
  | lineFeed => '\n'
  | carriageReturn => '\r'
  | tab => '\t'

/-- The escape with a letter. -/
def ofLetter? (c : Char) : Option Escape := all.find? fun e => e.letter = c

/-- The escape that is written for a character; a slash is written as it is. -/
def ofChar? (c : Char) : Option Escape := all.find? fun e => e.char = c && e != slash

theorem char_of_ofChar? {c : Char} {e : Escape} (h : ofChar? c = some e) : e.char = c := by
  have := List.find?_some h
  simp only [Bool.and_eq_true, decide_eq_true_eq] at this
  exact this.1

end Escape

/-- One piece of a quoted string. -/
inductive Piece where
  /-- A character that stands for itself. -/
  | plain (c : Char)
  | short (e : Escape)
  /-- A code unit, written as four hexadecimal digits. -/
  | unit (code : UInt16)
  deriving DecidableEq

/-- A string as it stands between its quotes. -/
abbrev Quoted := List Piece

/-- The first unit of a pair. -/
def isLeading (code : UInt16) : Bool := 0xD800 ≤ code && code ≤ 0xDBFF

/-- The second unit of a pair. -/
def isTrailing (code : UInt16) : Bool := 0xDC00 ≤ code && code ≤ 0xDFFF

/-- The character of a pair of units. -/
def pairChar (leading trailing : UInt16) : Char :=
  .ofNat (0x10000 + (leading.toNat - 0xD800) * 0x400 + (trailing.toNat - 0xDC00))

namespace Quoted

/-- The characters that a quoted string denotes; none when a unit of a pair stands alone. -/
def chars? : Quoted → Option (List Char)
  | [] => some []
  | .plain c :: rest => (chars? rest).map (c :: ·)
  | .short e :: rest => (chars? rest).map (e.char :: ·)
  | .unit code :: rest =>
    if isLeading code then
      match rest with
      | .unit second :: rest' =>
        if isTrailing second then (chars? rest').map (pairChar code second :: ·) else none
      | _ => none
    else if isTrailing code then none
    else (chars? rest).map (Char.ofNat code.toNat :: ·)

/-- The text that a quoted string denotes. -/
def text? (q : Quoted) : Option String := (chars? q).map String.ofList

/-- The piece that is written for a character: a short escape if there is one, four digits for
another control character, and else the character. -/
def pieceOf (c : Char) : Piece :=
  match Escape.ofChar? c with
  | some e => .short e
  | none => if c < ' ' then .unit (.ofNat c.toNat) else .plain c

/-- The quoted string that is written for a text. -/
def ofText (s : String) : Quoted := s.toList.map pieceOf

theorem chars?_pieceOf_cons (c : Char) (rest : Quoted) :
    chars? (pieceOf c :: rest) = (chars? rest).map (c :: ·) := by
  unfold pieceOf
  split
  · rename_i e he
    simp [chars?, Escape.char_of_ofChar? he]
  · split
    · rename_i hc
      have hlt : c.toNat < 32 := by
        have : c.val.toNat < (' ' : Char).val.toNat := hc
        exact this
      have hcode : (UInt16.ofNat c.toNat).toNat = c.toNat := by
        rw [UInt16.toNat_ofNat']
        omega
      have hlead : isLeading (.ofNat c.toNat) = false := by
        simp only [isLeading, Bool.and_eq_false_iff, decide_eq_false_iff_not,
          UInt16.le_iff_toNat_le, hcode]
        left
        simp
        omega
      have htrail : isTrailing (.ofNat c.toNat) = false := by
        simp only [isTrailing, Bool.and_eq_false_iff, decide_eq_false_iff_not,
          UInt16.le_iff_toNat_le, hcode]
        left
        simp
        omega
      rw [chars?.eq_def]
      simp [hlead, htrail, hcode]
    · simp [chars?]

theorem chars?_map_pieceOf (s : List Char) : chars? (s.map pieceOf) = some s := by
  induction s with
  | nil => rfl
  | cons c s ih => rw [List.map_cons, chars?_pieceOf_cons, ih]; rfl

/-- What is written for a text reads as the text. -/
theorem text?_ofText (s : String) : text? (ofText s) = some s := by
  simp [text?, ofText, chars?_map_pieceOf]

end Quoted

end ConsentGate
