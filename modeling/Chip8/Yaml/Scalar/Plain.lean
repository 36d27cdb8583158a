import Chip8.Yaml.Cursor

/-!
# Plain scalars

A scalar without quotes is made of words with gaps between them.  A gap is a run of spaces, or
line breaks with the indentation behind them, which fold.
-/

namespace Chip8.Yaml.Plain

/-- Whether a word ends before a character, given what follows the character: at blanks, at a
colon with a blank behind it, and inside brackets also at the marks of flow collections. -/
def endsWord (inFlow : Bool) (c : Char) (following : Option Char) : Bool :=
  let marks := [',', '[', ']', '\x7b', '\x7d']
  c == ' ' || c == '\t' || isBreak c ||
    (c == ':' && (isBlankOrEnd following || (inFlow && following.any marks.contains))) ||
    (inFlow && (c == '?' || marks.contains c))

def word (inFlow : Bool) : List Char → List Char
  | [] => []
  | c :: rest => if endsWord inFlow c rest.head? then [] else c :: word inFlow rest

def startsAt (inFlow : Bool) (c : Cursor) : Bool :=
  match c.rest with
  | [] => false
  | char :: rest =>
    let indicators := "-?:,[]\x7b\x7d#&*!|>'\"%@\x60".toList
    if indicators.contains char || isBlankOrEnd (some char) then
      !isBlankOrEnd rest.head? && (char == '-' || (!inFlow && (char == '?' || char == ':')))
    else true

/-- The line breaks at a cursor, with the spaces before each of them skipped; nothing if a mark
between documents follows one of them. -/
def breaks : Nat → Cursor → Option (List Char) × Cursor
  | 0, c => (some [], c)
  | fuel + 1, c =>
    match c.skipSpaces.lineBreak? with
    | none => (some [], c.skipSpaces)
    | some (char, c) =>
      if c.isAtMark then (none, c)
      else
        let (more, c) := breaks fuel c
        (more.map (char :: ·), c)

structure Gap where
  text : List Char
  cursor : Cursor
  brokeLine : Bool

def gap (c : Cursor) : Gap :=
  match c.skipSpaces.lineBreak? with
  | none => ⟨(c.takeWhile (· == ' ')).1, c.skipSpaces, false⟩
  | some _ =>
    let (chars, c) := breaks c.steps c
    ⟨folded (chars.getD []), c, true⟩

def words (inFlow : Bool) (column : Int) : Nat → Cursor → List Char × Gap
  | 0, c => ([], ⟨[], c, false⟩)
  | fuel + 1, c =>
    let first := word inFlow c.rest
    let behind := gap (c.skip first.length)
    let c := behind.cursor
    if behind.text.isEmpty || c.isAt '#' || (!inFlow && (c.column : Int) < column) ||
        (word inFlow c.rest).isEmpty then
      (first, behind)
    else
      let (more, last) := words inFlow column fuel c
      (first ++ behind.text ++ more, last)

/-- Reads a plain scalar: its text, the cursor behind the gap that ends it, and whether that gap
holds a line break. -/
def read (inFlow : Bool) (column : Int) (c : Cursor) : String × Cursor × Bool :=
  let (text, last) := words inFlow column c.steps c
  (String.ofList text, last.cursor, last.brokeLine)

end Chip8.Yaml.Plain
