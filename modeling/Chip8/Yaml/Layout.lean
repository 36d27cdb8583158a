import Chip8.Yaml.Property
import Chip8.Yaml.Scalar.Block
import Chip8.Yaml.Scalar.Plain
import Chip8.Yaml.Scalar.Quoted

/-!
# From text to tokens

Outside brackets the structure of a document is in its layout: a line that starts further right
than the collection around it opens a collection, one that starts further left closes some.  That
a token is a key of a mapping shows only at the colon behind it, so the reader keeps in mind, for
each depth of brackets, the last place where a key may have started.
-/

namespace Chip8.Yaml

/-- A place where the key of a mapping may have started. -/
structure KeyPlace where
  position : Nat
  /-- A key has to start here: the place is where the entries of a block mapping start. -/
  required : Bool
  place : Cursor

structure Layout where
  cursor : Cursor
  depth : Nat := 0
  /-- The column of the innermost block collection; -1 if there is none. -/
  column : Int := -1
  outer : List Int := []
  keyMayStart : Bool := true
  /-- For each depth of brackets the place where a key may have started. -/
  keys : List (Nat × KeyPlace) := []
  tokens : Array Token := #[]
  ended : Bool := false

namespace Layout

def inFlow (l : Layout) : Bool := l.depth != 0

def emit (l : Layout) (t : Token) : Layout := { l with tokens := l.tokens.push t }

def emitMark (l : Layout) (t : Token) (width : Nat) : Layout :=
  { l.emit t with cursor := l.cursor.skip width }

/-! ## Places of keys -/

def missingKey : Error := .malformed "a colon is missing behind a key"

def dropKey (l : Layout) : Except Error Layout :=
  match List.lookup l.depth l.keys with
  | none => .ok l
  | some key =>
    if key.required then .error missingKey
    else .ok { l with keys := l.keys.filter (·.1 != l.depth) }

def markKey (l : Layout) : Except Error Layout :=
  if l.keyMayStart then do
    let required := !l.inFlow && l.column == (l.cursor.column : Int)
    let l ← l.dropKey
    pure { l with keys := (l.depth, ⟨l.tokens.size, required, l.cursor⟩) :: l.keys }
  else .ok l

def longestKey : Nat := 1024

/-- Whether a key that started at a place can no longer end: a key is short and on one line. -/
def isStale (l : Layout) (key : KeyPlace) : Bool :=
  key.place.line != l.cursor.line || longestKey < l.cursor.index - key.place.index

def dropStaleKeys (l : Layout) : Except Error Layout :=
  if l.keys.any fun entry => l.isStale entry.2 && entry.2.required then .error missingKey
  else .ok { l with keys := l.keys.filter fun entry => !l.isStale entry.2 }

/-! ## Indentation -/

def unwindTo (column : Int) : List Int → Layout → Layout
  | [], l => l
  | around :: outer, l =>
    if column < l.column then
      unwindTo column outer { l.emit .blockEnd with column := around, outer }
    else l

def unwind (l : Layout) (column : Int) : Layout :=
  if l.inFlow then l else unwindTo column l.outer l

def opensAt (l : Layout) (column : Nat) : Bool :=
  !l.inFlow && l.column < (column : Int)

def openAt (l : Layout) (column : Nat) (position : Nat) (t : Token) : Layout :=
  if l.opensAt column then
    { l with
      column
      outer := l.column :: l.outer
      tokens := l.tokens.insertIdxIfInBounds position t }
  else l

/-! ## Tokens of structure -/

def inBlock (l : Layout) : Bool := !l.inFlow && -1 < l.column

def closeAll (l : Layout) : Except Error Layout := do
  let l ← (l.unwind (-1)).dropKey
  pure { l with keyMayStart := false }

def openBracket (l : Layout) (t : Token) : Except Error Layout := do
  let l ← l.markKey
  pure { l.emitMark t 1 with depth := l.depth + 1, keyMayStart := true }

/-- Reads a closing bracket.  No node goes on with one that was not opened, so what follows it
does not matter. -/
def closeBracket (l : Layout) (t : Token) : Except Error Layout := do
  let l ← l.dropKey
  pure { l.emitMark t 1 with
    depth := l.depth - 1, keyMayStart := false, ended := l.depth == 0 }

def flowEntry (l : Layout) : Except Error Layout := do
  let l ← l.dropKey
  pure { l.emitMark .flowEntry 1 with keyMayStart := true }

def blockEntry (l : Layout) : Except Error Layout :=
  if !l.inFlow && !l.keyMayStart then .error (.malformed "an entry cannot start here")
  else do
    let l := l.openAt l.cursor.column l.tokens.size .blockSequenceStart
    let l ← l.dropKey
    pure { l.emitMark .blockEntry 1 with keyMayStart := true }

def explicitKey (l : Layout) : Except Error Layout :=
  if !l.inFlow && !l.keyMayStart then .error (.malformed "a key cannot start here")
  else do
    let l := l.openAt l.cursor.column l.tokens.size .blockMappingStart
    let l ← l.dropKey
    pure { l.emitMark .key 1 with keyMayStart := !l.inFlow }

/-- Reads the colon of a value.  It makes what started at the remembered place a key. -/
def value (l : Layout) : Except Error Layout :=
  match List.lookup l.depth l.keys with
  | some key =>
    let l := { l with
      keys := l.keys.filter (·.1 != l.depth)
      tokens := l.tokens.insertIdxIfInBounds key.position .key }
    let l := l.openAt key.place.column key.position .blockMappingStart
    .ok { l.emitMark .value 1 with keyMayStart := false }
  | none =>
    if !l.inFlow && !l.keyMayStart then .error (.malformed "a value cannot start here")
    else
      let l := l.openAt l.cursor.column l.tokens.size .blockMappingStart
      .ok { l.emitMark .value 1 with keyMayStart := !l.inFlow }

/-! ## Tokens of content -/

def content {α : Type} (l : Layout) (read : Cursor → Except Error (α × Cursor))
    (token : α → Token) : Except Error Layout := do
  let l ← l.markKey
  let (a, cursor) ← read l.cursor
  pure { l.emit (token a) with cursor, keyMayStart := false }

def plain (l : Layout) : Except Error Layout := do
  let l ← l.markKey
  let (text, cursor, brokeLine) := Plain.read l.inFlow (l.column + 1) l.cursor
  pure { l.emit (.scalar text true) with cursor, keyMayStart := brokeLine }

def block (l : Layout) (folds : Bool) : Except Error Layout := do
  let l ← l.dropKey
  let (text, cursor) ← Block.read folds l.column l.cursor
  pure { l.emit (.scalar text false) with cursor, keyMayStart := true }

def directive (l : Layout) : Except Error Layout := do
  let l ← l.closeAll
  let (d, cursor) ← Property.directive l.cursor
  pure { l.emit (.directive d) with cursor }

/-! ## The reader -/

def toNext : Nat → Layout → Layout
  | 0, l => l
  | fuel + 1, l =>
    match l.cursor.skipSpaces.skipComment.lineBreak? with
    | none => { l with cursor := l.cursor.skipSpaces.skipComment }
    | some (_, cursor) =>
      toNext fuel { l with cursor, keyMayStart := l.keyMayStart || !l.inFlow }

inductive Lead where
  | textEnd
  | directive
  | mark (t : Token)
  | opening (t : Token)
  | closing (t : Token)
  | comma
  | hyphen
  | question
  | colon
  | alias
  | anchor
  | tag
  | block (folds : Bool)
  | quote (char : Char)
  | plain
  | stray
  deriving DecidableEq, Repr

def lead (l : Layout) : Lead :=
  let c := l.cursor
  let beforeBlank := isBlankOrEnd (c.peekAt? 1)
  match c.peek? with
  | none => .textEnd
  | some char =>
    if char == '%' && c.column == 0 then .directive
    else if c.column == 0 && c.isAtMark then
      .mark (if char == '-' then .documentStart else .documentEnd)
    else if char == '[' then .opening .flowSequenceStart
    else if char == '\x7b' then .opening .flowMappingStart
    else if char == ']' then .closing .flowSequenceEnd
    else if char == '\x7d' then .closing .flowMappingEnd
    else if char == ',' then .comma
    else if char == '-' && beforeBlank then .hyphen
    else if char == '?' && (l.inFlow || beforeBlank) then .question
    else if char == ':' && (l.inFlow || beforeBlank) then .colon
    else if char == '*' then .alias
    else if char == '&' then .anchor
    else if char == '!' then .tag
    else if char == '|' && !l.inFlow then .block false
    else if char == '>' && !l.inFlow then .block true
    else if char == '\'' || char == '"' then .quote char
    else if Plain.startsAt l.inFlow c then .plain
    else .stray

def approach (l : Layout) : Except Error Layout := do
  let l ← (l.toNext l.cursor.steps).dropStaleKeys
  pure (l.unwind l.cursor.column)

def token (l : Layout) : Except Error Layout :=
  match l.lead with
  | .textEnd => do pure { ← l.closeAll with keys := [], ended := true }
  | .directive => l.directive
  | .mark t => do pure ((← l.closeAll).emitMark t 3)
  | .opening t => l.openBracket t
  | .closing t => l.closeBracket t
  | .comma => l.flowEntry
  | .hyphen => l.blockEntry
  | .question => l.explicitKey
  | .colon => l.value
  | .alias => l.content Property.anchorName .alias
  | .anchor => l.content Property.anchorName .anchor
  | .tag => l.content Property.tag .tag
  | .block folds => l.block folds
  | .quote char => l.content (Quoted.read char) fun text => .scalar text false
  | .plain => l.plain
  | .stray => .error (.malformed "a character that starts no token")

/-- The number of tokens that are settled: no key can start in front of them any more. -/
def settledCount (l : Layout) : Nat :=
  let pending := (l.keys.filter fun entry => !l.isStale entry.2).map (·.2.position)
  pending.min?.getD l.tokens.size

end Layout

end Chip8.Yaml
