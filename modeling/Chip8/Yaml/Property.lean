import Chip8.Text.Numeral
import Chip8.Yaml.Cursor
import Chip8.Yaml.Error
import Chip8.Yaml.Token

/-!
# Names of anchors and tags, and directives

The parts of a document that name things: anchors and the aliases that refer to them, tags, and
the directives in front of a document.
-/

namespace Chip8.Yaml.Property

def anchorName (c : Cursor) : Except Error (String × Cursor) :=
  let (name, behind) := c.next.takeWhile isNameChar
  let mayFollow := "?:,]\x7d%@\x60".toList
  if name.isEmpty then .error (.malformed "an anchor without a name")
  else if isBlankOrEnd behind.peek? || behind.peek?.any mayFollow.contains then
    .ok (String.ofList name, behind)
  else .error (.malformed "an unknown character in the name of an anchor")

/-! ## Tags -/

def isAddressChar (c : Char) : Bool :=
  c.isAlphanum || "-;/?:@&=+$,_.!~*'()[]".toList.contains c

def escapedBytes : List Char → Except Error (List UInt8 × List Char)
  | '%' :: a :: b :: rest =>
    if Text.isDigitOf 16 a && Text.isDigitOf 16 b then do
      let (bytes, rest) ← escapedBytes rest
      pure (UInt8.ofNat (Text.ofDigits 16 [a, b]) :: bytes, rest)
    else .error (.malformed "a hexadecimal digit is missing in a tag")
  | '%' :: _ => .error (.malformed "a hexadecimal digit is missing in a tag")
  | rest => .ok ([], rest)

def addressChars : Nat → List Char → Except Error (List Char × List Char)
  | 0, cs => .ok ([], cs)
  | fuel + 1, cs =>
    match cs with
    | [] => .ok ([], [])
    | '%' :: _ => do
      let (bytes, rest) ← escapedBytes cs
      match String.fromUTF8? ⟨bytes.toArray⟩ with
      | none => .error (.malformed "the escapes of a tag spell no characters")
      | some part =>
        let (more, rest) ← addressChars fuel rest
        pure (part.toList ++ more, rest)
    | c :: rest =>
      if isAddressChar c then do
        let (more, rest) ← addressChars fuel rest
        pure (c :: more, rest)
      else .ok ([], cs)

def address (c : Cursor) : Except Error (String × Cursor) := do
  let (chars, rest) ← addressChars c.steps c.rest
  if rest.length = c.rest.length then .error (.malformed "a tag without an address")
  else pure (String.ofList chars, c.skip (c.rest.length - rest.length))

/-- Reads the handle of a tag: an exclamation mark, or a name between two of them. -/
def handle (c : Cursor) : Except Error (String × Cursor) :=
  if !c.isAt '!' then .error (.malformed "a tag handle without its mark")
  else
    let (name, behind) := c.next.takeWhile isNameChar
    if name.isEmpty && c.next.isAt ' ' then .ok ("!", c.next)
    else if behind.isAt '!' then .ok (String.ofList ('!' :: name ++ ['!']), behind.next)
    else .error (.malformed "a tag handle without its closing mark")

def tagName (c : Cursor) : Except Error (TagName × Cursor) :=
  if c.next.isAt '<' then do
    let (suffix, c) ← address (c.skip 2)
    if c.isAt '>' then pure (⟨none, suffix⟩, c.next)
    else .error (.malformed "a tag without its closing bracket")
  else if isBlankOrEnd c.next.peek? then .ok (⟨none, "!"⟩, c.next)
  else do
    let hasHandle := (c.next.rest.takeWhile fun char => !isSpaceOrEnd (some char)).contains '!'
    let (name, c) ← if hasHandle then handle c else pure ("!", c.next)
    let (suffix, c) ← address c
    pure (⟨some name, suffix⟩, c)

def tag (c : Cursor) : Except Error (TagName × Cursor) := do
  let (name, c) ← tagName c
  if isSpaceOrEnd c.peek? then pure (name, c)
  else .error (.malformed "an unknown character behind a tag")

/-! ## Directives -/

def number (c : Cursor) : Except Error (Nat × Cursor) :=
  let (digits, behind) := c.takeWhile (Text.isDigitOf 10)
  if digits.isEmpty then .error (.malformed "a digit is missing in a version")
  else if Text.NumeralError.digitLimit < digits.length then
    .error (.badInteger (.tooLong digits.length))
  else .ok (Text.ofDigits 10 digits, behind)

def version (c : Cursor) : Except Error (Directive × Cursor) := do
  let (major, c) ← number c.skipSpaces
  if !c.isAt '.' then .error (.malformed "a point is missing in a version")
  else
    let (_, c) ← number c.next
    if isSpaceOrEnd c.peek? then pure (.version major, c)
    else .error (.malformed "an unknown character in a version")

def handleMeaning (c : Cursor) : Except Error (Directive × Cursor) := do
  let (name, c) ← handle c.skipSpaces
  if !c.isAt ' ' then .error (.malformed "a space is missing behind a tag handle")
  else
    let (meaning, c) ← address c.skipSpaces
    if isSpaceOrEnd c.peek? then pure (.handle name meaning, c)
    else .error (.malformed "an unknown character behind the meaning of a tag handle")

def directiveBody (c : Cursor) : Except Error (Directive × Cursor) :=
  let (name, c) := c.next.takeWhile isNameChar
  if name.isEmpty then .error (.malformed "a directive without a name")
  else if !isSpaceOrEnd c.peek? then
    .error (.malformed "an unknown character in the name of a directive")
  else match String.ofList name with
    | "YAML" => version c
    | "TAG" => handleMeaning c
    | _ => .ok (.other, c.skipWhile (!isBreak ·))

def directive (c : Cursor) : Except Error (Directive × Cursor) := do
  let (d, c) ← directiveBody c
  let c := c.skipSpaces.skipComment
  if isLineEnd c.peek? then pure (d, c.skipBreak)
  else .error (.malformed "text behind a directive")

end Chip8.Yaml.Property
