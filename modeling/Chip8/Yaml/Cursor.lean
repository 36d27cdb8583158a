/-!
# Places in a text

A cursor holds the characters that are left to read and where in the text it stands, because
the layout of a document is told by lines and columns.
-/

namespace Chip8.Yaml

def isBreak (c : Char) : Bool :=
  c == '\n' || c == '\r' || c == '\x85' || c == '\u2028' || c == '\u2029'

def isAllowed (c : Char) : Bool :=
  let n := c.toNat
  c == '\t' || c == '\n' || c == '\r' || (0x20 ≤ n && n ≤ 0x7E) || n == 0x85 ||
    (0xA0 ≤ n && n ≤ 0xFFFD) || 0x10000 ≤ n

def isNameChar (c : Char) : Bool :=
  c.isAlphanum || c == '-' || c == '_'

/-- The mark of byte order, which takes no column. -/
def byteOrderMark : Char := '\uFEFF'

/-! ## What may follow

`none` stands for the end of the text. -/

def isLineEnd (c : Option Char) : Bool :=
  c.all isBreak

def isSpaceOrEnd (c : Option Char) : Bool :=
  c.all fun c => c == ' ' || isBreak c

def isBlankOrEnd (c : Option Char) : Bool :=
  c.all fun c => c == ' ' || c == '\t' || isBreak c

structure Cursor where
  rest : List Char
  /-- A number of steps in which the rest of the text is read. -/
  steps : Nat
  index : Nat := 0
  line : Nat := 0
  column : Nat := 0
  deriving DecidableEq, Repr

namespace Cursor

def ofChars (cs : List Char) : Cursor := { rest := cs, steps := cs.length + 1 }

def peek? (c : Cursor) : Option Char := c.rest.head?

def peekAt? (c : Cursor) (n : Nat) : Option Char := c.rest[n]?

def isAt (c : Cursor) (char : Char) : Bool := c.peek? == some char

def next (c : Cursor) : Cursor :=
  match c.rest with
  | [] => c
  | char :: rest =>
    if isBreak char && !(char == '\r' && rest.head? == some '\n') then
      { c with rest, index := c.index + 1, line := c.line + 1, column := 0 }
    else
      let column := if char == byteOrderMark then c.column else c.column + 1
      { c with rest, index := c.index + 1, column }

def skip : Nat → Cursor → Cursor
  | 0, c => c
  | n + 1, c => skip n c.next

def takeWhile (c : Cursor) (p : Char → Bool) : List Char × Cursor :=
  let taken := c.rest.takeWhile p
  (taken, c.skip taken.length)

def skipWhile (c : Cursor) (p : Char → Bool) : Cursor :=
  (c.takeWhile p).2

def skipSpaces (c : Cursor) : Cursor :=
  c.skipWhile (· == ' ')

def skipSpacesTo (c : Cursor) (column : Nat) : Cursor :=
  c.skip ((c.rest.take (column - c.column)).takeWhile (· == ' ')).length

def skipComment (c : Cursor) : Cursor :=
  if c.isAt '#' then c.skipWhile (!isBreak ·) else c

/-- A line break at the cursor as it counts in a scalar, with the cursor behind it: all breaks
but the two separators of Unicode count as a line feed. -/
def lineBreak? (c : Cursor) : Option (Char × Cursor) :=
  match c.rest with
  | '\r' :: '\n' :: _ => some ('\n', c.skip 2)
  | char :: _ =>
    if isBreak char then
      some (if char == '\u2028' || char == '\u2029' then char else '\n', c.next)
    else none
  | [] => none

def skipBreak (c : Cursor) : Cursor :=
  match c.lineBreak? with
  | some (_, c) => c
  | none => c

def charsTo (c later : Cursor) : List Char :=
  c.rest.take (later.index - c.index)

def isAtMark (c : Cursor) : Bool :=
  let mark := c.rest.take 3
  (mark == ['-', '-', '-'] || mark == ['.', '.', '.']) && isBlankOrEnd (c.peekAt? 3)

end Cursor

/-- The text that line folding puts for line breaks: one line feed becomes a space, of several
the first is dropped. -/
def folded : List Char → List Char
  | [] => []
  | ['\n'] => [' ']
  | '\n' :: breaks => breaks
  | breaks => breaks

end Chip8.Yaml
