/-!
# Text

Text is a sequence of characters.  Escapes by number may also spell one half of a surrogate pair
without the other half; such a half is no character, but text can hold it.
-/

namespace Chip8

inductive Letter where
  | char (c : Char)
  /-- Half of a surrogate pair, by its distance from the first one, U+D800. -/
  | half (n : Fin 0x800)
  deriving DecidableEq, Repr, Inhabited

namespace Letter

def code : Letter → Nat
  | char c => c.toNat
  | half n => 0xD800 + n

def ofCode? (code : Nat) : Option Letter :=
  if h : 0xD800 ≤ code ∧ code < 0xE000 then some (half ⟨code - 0xD800, by omega⟩)
  else if code ≤ 0x10FFFF then some (char (Char.ofNat code))
  else none

def char? : Letter → Option Char
  | char c => some c
  | half _ => none

end Letter

structure Text where
  letters : List Letter
  deriving DecidableEq, Repr, Inhabited

namespace Text

def ofChars (cs : List Char) : Text := ⟨cs.map .char⟩

def ofString (s : String) : Text := ofChars s.toList

instance : Coe String Text := ⟨ofString⟩

instance : Append Text := ⟨fun s t => ⟨s.letters ++ t.letters⟩⟩

def join (separator : Text) : List Text → Text
  | [] => ""
  | [t] => t
  | t :: rest => t ++ separator ++ join separator rest

def chars? (t : Text) : Option (List Char) :=
  t.letters.mapM Letter.char?

def toString? (t : Text) : Option String :=
  t.chars?.map String.ofList

def isEmpty (t : Text) : Bool := t.letters.isEmpty

@[simp] theorem letters_append (s t : Text) : (s ++ t).letters = s.letters ++ t.letters := rfl

@[simp] theorem chars?_ofChars (cs : List Char) : (ofChars cs).chars? = some cs := by
  simp only [chars?, ofChars]
  induction cs with
  | nil => rfl
  | cons c cs ih => simp [List.mapM_cons, ih, Letter.char?]

@[simp] theorem toString?_ofString (s : String) : (ofString s).toString? = some s := by
  simp [toString?, ofString]

theorem ofString_injective {s t : String} (h : ofString s = ofString t) : s = t := by
  have := congrArg toString? h
  simpa using this

end Text

end Chip8
