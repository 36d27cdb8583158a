import Chip8.Text.Numeral
import Chip8.Yaml.Cursor
import Chip8.Yaml.Error

/-!
# Quoted scalars

Between single quotes only the quote itself is special, and is written twice; between double
quotes there are escapes.  Line breaks fold in both.
-/

namespace Chip8.Yaml.Quoted

def escape? : Char → Option Char
  | '0' => some '\x00'
  | 'a' => some '\x07'
  | 'b' => some '\x08'
  | 't' => some '\t'
  | '\t' => some '\t'
  | 'n' => some '\n'
  | 'v' => some '\x0b'
  | 'f' => some '\x0c'
  | 'r' => some '\r'
  | 'e' => some '\x1b'
  | ' ' => some ' '
  | '"' => some '"'
  | '\\' => some '\\'
  | '/' => some '/'
  | 'N' => some '\x85'
  | '_' => some '\xa0'
  | 'L' => some '\u2028'
  | 'P' => some '\u2029'
  | _ => none

def escapeWidth? : Char → Option Nat
  | 'x' => some 2
  | 'u' => some 4
  | 'U' => some 8
  | _ => none

def numbered (digits : List Char) (width : Nat) : Except Error Letter :=
  if digits.length < width ∨ !digits.all (Text.isDigitOf 16) then
    .error (.malformed "a hexadecimal digit is missing in an escape")
  else
    let code := Text.ofDigits 16 digits
    match Letter.ofCode? code with
    | some letter => .ok letter
    | none => .error (.noSuchCharacter code)

def breaks : Nat → Cursor → Except Error (List Char × Cursor)
  | 0, c => .ok ([], c)
  | fuel + 1, c =>
    if c.isAtMark then .error (.malformed "the document ends inside quotes")
    else
      let c := c.skipWhile fun char => char == ' ' || char == '\t'
      match c.lineBreak? with
      | none => .ok ([], c)
      | some (char, c) => do
        let (more, c) ← breaks fuel c
        pure (char :: more, c)

def gap (c : Cursor) : Except Error (List Letter × Cursor) :=
  let (blanks, c) := c.takeWhile fun char => char == ' ' || char == '\t'
  match c.lineBreak? with
  | none => .ok (blanks.map .char, c)
  | some (char, c) => do
    let (more, c) ← breaks c.steps c
    pure ((folded (char :: more)).map .char, c)

def escape (c : Cursor) : Except Error (List Letter × Cursor) :=
  match c.rest with
  | [] => .error (.malformed "the text ends in an escape")
  | char :: rest =>
    match escape? char, escapeWidth? char with
    | some meaning, _ => .ok ([.char meaning], c.next)
    | none, some width => do
      let meaning ← numbered (rest.take width) width
      pure ([meaning], c.skip (width + 1))
    | none, none =>
      match c.lineBreak? with
      | some (_, c) => do
        let (more, c) ← breaks c.steps c
        pure (more.map .char, c)
      | none => .error (.malformed "an unknown escape")

/-- What the characters at a cursor count as, the first of which is given; nothing if it is the
closing quote. -/
def part (quote char : Char) (c : Cursor) : Except Error (Option (List Letter) × Cursor) :=
  let found (read : List Letter × Cursor) := (some read.1, read.2)
  if char == quote then
    if quote == '\'' && c.next.isAt quote then .ok (some [.char quote], c.skip 2)
    else .ok (none, c.next)
  else if quote == '"' && char == '\\' then (escape c.next).map found
  else if isBlankOrEnd (some char) then (gap c).map found
  else .ok (some [.char char], c.next)

def body (quote : Char) : Nat → List Letter → Cursor → Except Error (Text × Cursor)
  | 0, _, _ => .error (.malformed "the text ends inside quotes")
  | fuel + 1, found, c =>
    match c.peek? with
    | none => .error (.malformed "the text ends inside quotes")
    | some char =>
      match part quote char c with
      | .error e => .error e
      | .ok (none, c) => .ok (⟨found.reverse⟩, c)
      | .ok (some letters, c) => body quote fuel (letters.reverse ++ found) c

def read (quote : Char) (c : Cursor) : Except Error (Text × Cursor) :=
  body quote c.steps [] c.next

end Chip8.Yaml.Quoted
