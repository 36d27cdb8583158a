import Chip8.Yaml.Graph
import Chip8.Yaml.TokenStream

/-!
# From tokens to graphs

The nodes of a document are read from its tokens.  What was read so far is judged before the next
token is asked for, so of a mistake in the structure and a text that cannot be split into tokens
the first is told.

Reading is recursive.  Every collection takes two levels for its own, so what is asked for inside
many collections is asked for far below the top; it is an error if no levels are left.
-/

namespace Chip8.Yaml.Graph

structure Reader where
  stream : TokenStream
  handles : List (String × String) := []
  names : List (String × Nat) := []
  nodes : Array Node := #[]

abbrev Read := StateT Reader (Except Error)

namespace Read

def fail {α : Type} (reason : String) : Read α := throw (.malformed reason)

/-! ## Tokens -/

def enter (level : Nat) : Read Unit :=
  if level ≤ callDepth then pure () else throw .tooDeep

def peek (level : Nat) : Read (Option Token) := do
  match (← get).stream with
  | [] => return none
  | offer :: rest =>
    enter (level + offer.first)
    modify fun r => { r with stream := { offer with first := offer.again } :: rest }
    match offer.yield with
    | .token t => return some t
    | .textEnd => return none
    | .failure e => throw e

def drop : Read Unit := modify fun r => { r with stream := r.stream.drop 1 }

def accept (level : Nat) (t : Token) : Read Bool := do
  if (← peek level) == some t then
    drop
    return true
  else return false

def acceptComma (level : Nat) (first : Bool) : Read Bool :=
  if first then pure true else accept level .flowEntry

def isAt (level : Nat) (tokens : List Token) : Read Bool :=
  return (← peek level).any tokens.contains

/-! ## Properties -/

def anchor? (level : Nat) : Read (Option String) := do
  match ← peek level with
  | some (.anchor name) =>
    drop
    return some name
  | _ => return none

def tagName? (level : Nat) : Read (Option TagName) := do
  match ← peek level with
  | some (.tag name) =>
    drop
    return some name
  | _ => return none

def address (name : TagName) : Read String := do
  match name.handle with
  | none => return name.suffix
  | some handle =>
    match List.lookup handle (← get).handles with
    | some meaning => return meaning ++ name.suffix
    | none => fail "an unknown tag handle"

structure Properties where
  name : Option String
  address : Option String

def properties (level : Nat) : Read Properties := do
  let name ← anchor? level
  let tag ← tagName? level
  let name ← if name.isNone && tag.isSome then anchor? level else pure name
  match tag with
  | none => return ⟨name, none⟩
  | some tag => return ⟨name, some (← address tag)⟩

/-- The tag of a collection, where the bare exclamation mark and no tag at all leave the choice
to the node. -/
def Properties.tagOr (own : Tag) (p : Properties) : Tag :=
  match p.address with
  | none => own
  | some "!" => own
  | some address => .ofAddress address

/-- The tag of a scalar: a plain one without a tag is told by its look, and so is any with the
bare exclamation mark. -/
def Properties.scalarTag (text : Text) (plain : Bool) (p : Properties) : Tag :=
  match p.address with
  | none => if plain then .ofText text else .str
  | some "!" => .ofText text
  | some address => .ofAddress address

/-! ## Nodes

What may follow a mark without a node between them says that the node is empty. -/

def add (node : Node) : Read Nat :=
  modifyGet fun r => (r.nodes.size, { r with nodes := r.nodes.push node })

def addNamed (p : Properties) (node : Node) : Read Nat := do
  match p.name with
  | none => add node
  | some name =>
    if ((← get).names.lookup name).isSome then fail "a name that is given twice"
    else
      let n ← add node
      modify fun r => { r with names := (name, n) :: r.names }
      return n

def addSequence (p : Properties) (items : Read (List Nat)) : Read Nat := do
  let tag := p.tagOr .seq
  let n ← addNamed p ⟨tag, .sequence []⟩
  let items ← items
  modify fun r => { r with nodes := r.nodes.setIfInBounds n ⟨tag, .sequence items⟩ }
  return n

def addMapping (p : Properties) (entries : Read (List (Nat × Nat))) : Read Nat := do
  let tag := p.tagOr .map
  let n ← addNamed p ⟨tag, .mapping []⟩
  let entries ← entries
  modify fun r => { r with nodes := r.nodes.setIfInBounds n ⟨tag, .mapping entries⟩ }
  return n

def nothing (p : Properties) : Read Nat :=
  if p.name.isNone && p.address.isNone then fail "a node is missing"
  else addNamed p ⟨p.scalarTag "" true, .scalar ""⟩

inductive Place where
  | flow
  | block
  /-- In a block mapping, where a sequence need not be further right than the mapping. -/
  | blockEntry
  deriving DecidableEq, Repr

def inside (level : Nat) : Nat := level + 2

/-- The levels that it takes to turn to an entry: one more for the first, where the collection is
opened on the way. -/
def turn {α : Type} (found : List α) : Nat := if found.isEmpty then 1 else 0

def addEmpty (level : Nat) : Read Nat := do
  enter (level + 4)
  add .empty

mutual

/-- Reads a node at a level, of which it is part how the reader turned to it.  The collections in
it are read at their own level. -/
def node (place : Place) (own level : Nat) : Nat → Read Nat
  | 0 => fail "a document without an end"
  | fuel + 1 => do
    match ← peek (level + 4) with
    | some (.alias name) =>
      drop
      match (← get).names.lookup name with
      | some n => return n
      | none => fail "an alias for an unknown name"
    | _ => content place (← properties (level + 4)) own level fuel
termination_by structural fuel => fuel

def content (place : Place) (p : Properties) (own level : Nat) : Nat → Read Nat
  | 0 => fail "a document without an end"
  | fuel + 1 => do
    let isBlock := place != .flow
    match ← peek (level + 4) with
    | some (.scalar text plain) =>
      drop
      addNamed p ⟨p.scalarTag text plain, .scalar text⟩
    | some .blockEntry =>
      if place == .blockEntry then addSequence p (alignedEntries [] (inside own) fuel)
      else nothing p
    | some .flowSequenceStart =>
      drop
      addSequence p (flowItems [] (inside own) fuel)
    | some .flowMappingStart =>
      drop
      addMapping p (flowEntries [] (inside own) fuel)
    | some .blockSequenceStart =>
      if isBlock then
        drop
        addSequence p (blockItems [] (inside own) fuel)
      else nothing p
    | some .blockMappingStart =>
      if isBlock then
        drop
        addMapping p (blockEntries [] (inside own) fuel)
      else nothing p
    | _ => nothing p
termination_by structural fuel => fuel

/-- Reads a node unless one of some tokens comes, which say that it is empty. -/
def nodeUnless (tokens : List Token) (place : Place) (own level : Nat) : Nat → Read Nat
  | 0 => fail "a document without an end"
  | fuel + 1 => do
    if ← isAt (level + 2) tokens then addEmpty level else node place own level fuel
termination_by structural fuel => fuel

def blockItems (found : List Nat) (own : Nat) : Nat → Read (List Nat)
  | 0 => fail "a document without an end"
  | fuel + 1 => do
    let level := own + turn found
    if ← accept (level + 2) .blockEntry then
      let item ← nodeUnless [.blockEntry, .blockEnd] .block own level fuel
      blockItems (item :: found) own fuel
    else if ← accept (level + 2) .blockEnd then return found.reverse
    else fail "a block sequence goes on with something else"
termination_by structural fuel => fuel

/-- Reads the entries of a sequence that stands below the keys of a mapping at their column,
behind items that come last first. -/
def alignedEntries (found : List Nat) (own : Nat) : Nat → Read (List Nat)
  | 0 => fail "a document without an end"
  | fuel + 1 => do
    if ← accept (own + 2) .blockEntry then
      let item ← nodeUnless [.blockEntry, .key, .value, .blockEnd] .block own own fuel
      alignedEntries (item :: found) own fuel
    else return found.reverse
termination_by structural fuel => fuel

def blockValue (own : Nat) : Nat → Read Nat
  | 0 => fail "a document without an end"
  | fuel + 1 => do
    let level := own + 1
    if ← accept (level + 2) .value then
      nodeUnless [.key, .value, .blockEnd] .blockEntry own level fuel
    else addEmpty level
termination_by structural fuel => fuel

def blockEntries (found : List (Nat × Nat)) (own : Nat) : Nat → Read (List (Nat × Nat))
  | 0 => fail "a document without an end"
  | fuel + 1 => do
    let level := own + turn found
    if ← accept (level + 2) .key then
      let key ← nodeUnless [.key, .value, .blockEnd] .blockEntry own level fuel
      let value ← blockValue own fuel
      blockEntries ((key, value) :: found) own fuel
    else if ← accept (level + 2) .blockEnd then return found.reverse
    else fail "a block mapping goes on with something else"
termination_by structural fuel => fuel

def flowValue (stop : Token) (own : Nat) : Nat → Read Nat
  | 0 => fail "a document without an end"
  | fuel + 1 => do
    let level := own + 1
    if ← accept (level + 2) .value then nodeUnless [.flowEntry, stop] .flow own level fuel
    else addEmpty level
termination_by structural fuel => fuel

def soleEntry (own : Nat) : Nat → Read (List (Nat × Nat))
  | 0 => fail "a document without an end"
  | fuel + 1 => do
    let key ← nodeUnless [.value, .flowEntry, .flowSequenceEnd] .flow own own fuel
    let value ← flowValue .flowSequenceEnd own fuel
    let _ ← peek (own + 2)
    return [(key, value)]
termination_by structural fuel => fuel

/-- Reads the items of a sequence in brackets with its end, behind items that come last first.  A
key among them makes an item a mapping of one entry. -/
def flowItems (found : List Nat) (own : Nat) : Nat → Read (List Nat)
  | 0 => fail "a document without an end"
  | fuel + 1 => do
    let level := own + turn found
    if ← accept (level + 2) .flowSequenceEnd then return found.reverse
    else
      if !(← acceptComma (level + 2) found.isEmpty) then fail "a comma is missing between items"
      else if ← accept (level + 2) .flowSequenceEnd then return found.reverse
      else if ← accept (level + 2) .key then
        let item ← addMapping ⟨none, none⟩ (soleEntry (inside own) fuel)
        flowItems (item :: found) own fuel
      else
        let item ← node .flow own level fuel
        flowItems (item :: found) own fuel
termination_by structural fuel => fuel

def flowEntries (found : List (Nat × Nat)) (own : Nat) : Nat → Read (List (Nat × Nat))
  | 0 => fail "a document without an end"
  | fuel + 1 => do
    let level := own + turn found
    if ← accept (level + 2) .flowMappingEnd then return found.reverse
    else
      if !(← acceptComma (level + 2) found.isEmpty) then
        fail "a comma is missing between entries"
      else if ← accept (level + 2) .flowMappingEnd then return found.reverse
      else if ← accept (level + 2) .key then
        let key ← nodeUnless [.value, .flowEntry, .flowMappingEnd] .flow own level fuel
        let value ← flowValue .flowMappingEnd own fuel
        flowEntries ((key, value) :: found) own fuel
      else
        let key ← node .flow own level fuel
        flowEntries ((key, ← addEmpty (own + 1)) :: found) own fuel
termination_by structural fuel => fuel

end

/-! ## Documents -/

def standardHandles : List (String × String) := [("!", "!"), ("!!", Tag.root)]

/-- Reads directives: at most one version, of the first major number, and each handle once. -/
def directivesOf : TokenStream → Bool → List (String × String) →
    Except Error (List (String × String) × TokenStream)
  | ⟨.token (.directive d), _, _⟩ :: rest, versionSeen, handles =>
    match d with
    | .version major =>
      if versionSeen then .error (.malformed "two versions")
      else if major ≠ 1 then .error (.malformed "an unknown version")
      else directivesOf rest true handles
    | .handle name meaning =>
      if (List.lookup name handles).isSome then
        .error (.malformed "a tag handle that is given twice")
      else directivesOf rest versionSeen ((name, meaning) :: handles)
    | .other => directivesOf rest versionSeen handles
  | rest, _, handles => .ok (handles, rest)

def directives : Read Unit := do
  let (handles, stream) ← directivesOf (← get).stream false []
  modify fun r => { r with stream, handles := handles ++ standardHandles }

def isExplicit : Token → Bool
  | .directive _ | .documentStart => true
  | _ => false

def endsDocument : Token → Bool
  | .directive _ | .documentStart | .documentEnd => true
  | _ => false

/-- The level of the outermost node: so many calls are under way where it is read. -/
def topLevel : Nat := 12

def ending : Read Unit := do
  modify fun r => { r with stream := r.stream.dropWhile (·.yield == .token .documentEnd) }
  match ← peek topLevel with
  | none => return
  | some _ =>
    directives
    let _ ← peek topLevel
    fail "something stands behind the document"

def documentNode (first : Token) (fuel : Nat) : Read Nat := do
  if !isExplicit first then
    modify fun r => { r with handles := standardHandles }
    node .block topLevel topLevel fuel
  else
    directives
    if !(← accept topLevel .documentStart) then fail "directives without a document"
    else if (← peek topLevel).all endsDocument then add .empty
    else node .block topLevel (topLevel + 1) fuel

def document : Read (Option Nat) := do
  match ← peek topLevel with
  | none => return none
  | some first =>
    let root ← documentNode first (4 * (← get).stream.length + 4)
    ending
    return some root

end Read

def ofTokens? (stream : TokenStream) : Except Error (Option Graph) := do
  let (root, r) ← Read.document.run { stream }
  return root.map fun root => ⟨r.nodes, root⟩

end Chip8.Yaml.Graph
