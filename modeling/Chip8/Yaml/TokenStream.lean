import Chip8.Yaml.Layout

/-!
# The stream of tokens

The tokens of a text are read when they are asked for, one after the other, and a token is given
out when it is settled, so that reading runs a little ahead.  Besides a mistake in the text two
things can stop the stream.  A text may come in pieces, and a piece with a character that no
document may hold is refused when it comes, not before.  And reading is recursive, with a bounded
number of levels: an offer tells how many levels asking for it takes.
-/

namespace Chip8.Yaml

inductive Yield where
  | token (t : Token)
  | textEnd
  | failure (e : Error)
  deriving DecidableEq, Repr

structure Offer where
  yield : Yield
  /-- The levels that asking takes for the first time, when tokens have to be read. -/
  first : Nat
  /-- The levels that asking takes from then on. -/
  again : Nat
  deriving DecidableEq, Repr

/-! ## Levels

Reading a token is divided up: into what starts it, what it is made of, its words and gaps and
line breaks.  Each division takes a level, and so do the places that are noted on the way. -/

/-- Whether there is an empty line between the quotes of a scalar, of which the text goes on for
a number of characters behind the end, or a line break right before the end of the text. -/
def breaksDeeply (behind : Nat) : List Char → Bool
  | [] => false
  | '\r' :: '\n' :: rest => breaksDeeply behind ('\n' :: rest)
  | c :: rest =>
    isBreak c &&
      ((rest.dropWhile fun c => c == ' ' || c == '\t').head?.any isBreak ||
        rest.length + behind ≤ 2) ||
      breaksDeeply behind rest
termination_by cs => cs.length

def Layout.levels (l : Layout) (result : Except Error Layout) : Nat :=
  match l.lead, result with
  | .textEnd, _ => if l.inBlock then 5 else 4
  | .directive, _ => 6
  | .mark _, _ => if l.inBlock then 6 else 5
  | .opening _, _ => if l.keyMayStart then 6 else 5
  | .closing _, _ | .alias, _ | .anchor, _ => 5
  | .comma, _ | .hyphen, _ | .question, _ | .colon, _ | .stray, _ => 4
  | .tag, .ok next => if (l.cursor.charsTo next.cursor).contains '%' then 7 else 5
  | .tag, .error _ => 6
  | .block _, _ => 7
  | .quote _, .ok next =>
    if breaksDeeply next.cursor.rest.length (l.cursor.charsTo next.cursor) then 7 else 6
  | .quote _, .error (.noSuchCharacter _) => 6
  | .quote _, .error _ => 7
  | .plain, .ok next => if next.cursor.rest.isEmpty && next.cursor.column == 0 then 6 else 5
  | .plain, .error _ => 5

/-! ## The stream -/

abbrev TokenStream := List Offer

namespace TokenStream

def notAllowed : Error := .malformed "a character that no document may hold"

def failed (e : Error) : TokenStream := [⟨.failure e, 1, 1⟩]

/-- The error that is met where the token at the cursor is wrong.  Where a text breaks off, a
number may go on that is too long already. -/
def errorAt (breaksOff : Bool) (l : Layout) (e : Error) : Error :=
  match breaksOff, e with
  | true, .badInteger _ =>
    let shorter := { l with cursor := { l.cursor with rest := l.cursor.rest.dropLast } }
    match shorter.token with
    | .error e' => if e' = e then e else notAllowed
    | .ok _ => notAllowed
  | _, _ => e

/-- The offers for the tokens that were settled by the latest step, which with those before it
took a number of levels: only the first of the tokens had to be waited for.  Asking again takes
fewer levels once the end of the text was seen. -/
def settled (l : Layout) (seenEnd : Bool) (offered levels : Nat) : List Offer :=
  let again := if seenEnd then 1 else 2
  match (l.tokens.extract offered l.settledCount).toList with
  | [] => []
  | t :: rest => ⟨.token t, levels + 1, again⟩ :: rest.map fun t => ⟨.token t, again, again⟩

def run (breaksOff : Bool) : Nat → Nat → Array Offer → Layout → Array Offer
  | 0, _, offers, _ => offers
  | fuel + 1, levels, offers, l =>
    let fail (levels : Nat) (e : Error) : Array Offer :=
      offers.push ⟨.failure e, levels + 1, 1⟩
    match l.approach with
    | .error e => fail (max levels 4) e
    | .ok l =>
      let result := l.token
      let levels := max levels (l.levels result)
      match result with
      | .error e => fail levels (errorAt breaksOff l e)
      | .ok next =>
        if breaksOff && next.cursor.rest.isEmpty then fail levels notAllowed
        else
          let found := settled next (l.lead == .textEnd) offers.size levels
          let levels := if found.isEmpty then levels else 0
          let offers := offers ++ found
          if next.ended then offers.push ⟨.textEnd, levels + 1, 1⟩
          else run breaksOff fuel levels offers next

def ofChars (breaksOff : Bool) (cs : List Char) : TokenStream :=
  let start := Cursor.ofChars cs
  let start := if start.isAt byteOrderMark then start.next else start
  (run breaksOff start.steps 0 #[] { cursor := start }).toList

end TokenStream

/-! ## Texts -/

inductive Delivery where
  | whole
  | pieces
  deriving DecidableEq, Repr

def pieceSize : Nat := 4096

def Delivery.readyBefore : Delivery → Nat → Nat
  | .whole, _ => 0
  | .pieces, n => if n < 2 * pieceSize then 0 else n / pieceSize * pieceSize

def TokenStream.ofText (delivery : Delivery) (text : Text) : TokenStream :=
  let chars (letters : List Letter) : List Char := letters.filterMap Letter.char?
  match text.letters.findIdx? fun l => !l.char?.any isAllowed with
  | none => ofChars false (chars text.letters)
  | some n =>
    let ready := delivery.readyBefore n
    if ready = 0 then failed notAllowed else ofChars true (chars (text.letters.take ready))

end Chip8.Yaml
