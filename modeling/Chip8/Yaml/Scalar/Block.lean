import Chip8.Text.Digit
import Chip8.Yaml.Cursor
import Chip8.Yaml.Error

/-!
# Block scalars

A block scalar is the indented text below its header.  The header says whether lines fold, what
becomes of the line breaks at the end, and, if need be, how deep the text is indented.
-/

namespace Chip8.Yaml.Block

inductive Ending where
  | strip
  | clip
  | keep
  deriving DecidableEq, Repr

structure Header where
  ending : Ending := .clip
  /-- How much deeper than its parent the text is indented. -/
  increment : Option Nat := none

def ending? (c : Cursor) : Option Ending :=
  match c.peek? with
  | some '+' => some .keep
  | some '-' => some .strip
  | _ => none

def digit? (c : Cursor) : Option Nat :=
  c.peek?.bind (Text.digit? 10)

def header (c : Cursor) : Header × Cursor :=
  match ending? c, digit? c with
  | some ending, _ =>
    match digit? c.next with
    | some n => (⟨ending, some n⟩, c.skip 2)
    | none => (⟨ending, none⟩, c.next)
  | none, some n =>
    match ending? c.next with
    | some ending => (⟨ending, some n⟩, c.skip 2)
    | none => (⟨.clip, some n⟩, c.next)
  | none, none => ({}, c)

def breaks (column : Nat) : Nat → Cursor → List Char × Cursor
  | 0, c => ([], c)
  | fuel + 1, c =>
    let c := c.skipSpacesTo column
    match c.lineBreak? with
    | none => ([], c)
    | some (char, c) =>
      let (more, c) := breaks column fuel c
      (char :: more, c)

/-- The empty lines at a cursor, and the deepest column that spaces reach on them and on the
line behind them. -/
def emptyLines : Nat → Cursor → List Char × Nat × Cursor
  | 0, c => ([], 0, c)
  | fuel + 1, c =>
    let behind := c.skipSpaces
    let column := if behind.index = c.index then 0 else behind.column
    match behind.lineBreak? with
    | none => ([], column, behind)
    | some (char, c) =>
      let (more, deepest, c) := emptyLines fuel c
      (char :: more, max column deepest, c)

structure Lines where
  text : List Char
  lastBreak : List Char
  trailing : List Char
  cursor : Cursor

def startsWithText (c : Cursor) : Bool :=
  !(c.isAt ' ' || c.isAt '\t')

/-- What stands for the break between two lines with empty lines between them: where lines fold,
a break between two lines of text becomes a space or, before empty lines, nothing. -/
def joint (folds : Bool) (lineBreak : List Char) (upper lower : Cursor) (empties : List Char) :
    List Char :=
  if folds && lineBreak == ['\n'] && startsWithText upper && startsWithText lower then
    if empties.isEmpty then [' '] else []
  else lineBreak

def lines (folds : Bool) (column : Nat) : Nat → Cursor → List Char → Lines
  | 0, c, empties => ⟨[], [], empties, c⟩
  | fuel + 1, c, empties =>
    if c.column ≠ column ∨ c.rest.isEmpty then ⟨[], [], empties, c⟩
    else
      let (line, lineEnd) := c.takeWhile (!isBreak ·)
      let (lineBreak, behind) := match lineEnd.lineBreak? with
        | some (char, c) => ([char], c)
        | none => ([], lineEnd)
      let (nextEmpties, lower) := breaks column behind.steps behind
      if lower.column = column ∧ !lower.rest.isEmpty then
        let more := lines folds column fuel lower nextEmpties
        { more with
          text := empties ++ line ++ joint folds lineBreak c lower nextEmpties ++ more.text }
      else ⟨empties ++ line, lineBreak, nextEmpties, lower⟩

/-- Reads a block scalar whose parent is indented to a column; the cursor stands at the mark of
the header. -/
def read (folds : Bool) (parent : Int) (c : Cursor) : Except Error (String × Cursor) :=
  let (head, c) := header c.next
  if head.increment = some 0 then .error (.malformed "an indentation of zero")
  else if !isSpaceOrEnd c.peek? then .error (.malformed "an unknown sign in a block header")
  else
    let c := c.skipSpaces.skipComment
    if !isLineEnd c.peek? then .error (.malformed "text behind a block header")
    else
      let c := c.skipBreak
      let least := (max (parent + 1) 1).toNat
      let (empties, column, c) := match head.increment with
        | none =>
          let (empties, deepest, c) := emptyLines c.steps c
          (empties, max least deepest, c)
        | some n =>
          let column := least + n - 1
          let (empties, c) := breaks column c.steps c
          (empties, column, c)
      let result := lines folds column c.steps c empties
      let text := result.text ++ (if head.ending = .strip then [] else result.lastBreak) ++
        (if head.ending = .keep then result.trailing else [])
      .ok (String.ofList text, result.cursor)

end Chip8.Yaml.Block
