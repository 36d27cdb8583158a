import Chip8.Document
import Chip8.Yaml.Graph.Merge
import Chip8.Yaml.Graph.Tokens
import Chip8.Yaml.Scalar.Reading

/-!
# Values of documents

The value that a document stands for.  Every node has one value, wherever it stands.  The value of
a collection is its number; what it holds is told afterwards, collection by collection in the
order of their numbers, so of several mistakes the one in the collection with the least number is
told.
-/

namespace Chip8.Yaml

structure Making where
  graph : Graph
  made : Array (Option Value)
  begun : Array Nat := #[]

abbrev Make := StateT Making (Except Error)

namespace Make

def fail {α : Type} (reason : String) : Make α := throw (.malformed reason)

def begin (n : Nat) : Make Nat :=
  modifyGet fun m => (m.begun.size, { m with begun := m.begun.push n })

def scalar (n : Nat) : Make Value := do
  let g := (← get).graph
  let text ← g.text n
  if g.tag n == .timestamp && (g.entries? n).isSome then throw .timestampOfMapping
  else Scalar.value (g.tag n) text

def value (n : Nat) : Make Value := do
  let m ← get
  match m.made.getD n none with
  | some value => return value
  | none =>
    let tag := m.graph.tag n
    let value ←
      if tag.isCollection then pure (.shared (← begin n) (tag == .map)) else scalar n
    modify fun m => { m with made := m.made.setIfInBounds n (some value) }
    return value

/-! ## Keys -/

structure Entry where
  node : Nat
  key : Value
  value : Value

def isNotANumber : Value → Bool
  | .float x => x != x
  | _ => false

/-- Whether the nodes of two keys that are no numbers make them the same: they are the same node
or both spelled with the word for what is no number. -/
def sameSource (g : Graph) (a b : Nat) : Bool :=
  let isWord (n : Nat) : Bool := (g.text n).toOption.any Scalar.spellsNotANumber
  a == b || (isWord a && isWord b)

def sameKey (g : Graph) (a b : Entry) : Bool :=
  Value.same a.key b.key ||
    (isNotANumber a.key && isNotANumber b.key && sameSource g a.node b.node)

/-- Puts an entry among others: a key keeps the place of its first mention and takes the value of
its last. -/
def put (g : Graph) (entries : Array Entry) (entry : Entry) : Array Entry :=
  match entries.findIdx? (sameKey g entry) with
  | some i => entries.modify i fun first => { first with value := entry.value }
  | none => entries.push entry

/-! ## Collections -/

def entries (n : Nat) : Make (List (Value × Value)) := do
  if ((← get).graph.entries? n).isNone then fail "a mapping is missing"
  let graph ← (← get).graph.settled n
  modify fun m => { m with graph }
  let found ← (graph.entries n).foldlM (fun found (k, v) => do
    let key ← value k
    match key with
    | .shared _ _ => fail "a collection as a key"
    | _ => return put graph found ⟨k, key, ← value v⟩) #[]
  return found.toList.map fun entry => (entry.key, entry.value)

def items (item : Nat → Make Value) (n : Nat) : Make Value := do
  match (← get).graph.items? n with
  | none => fail "a sequence is missing"
  | some items => return .list (← items.mapM item)

def soleEntry (n : Nat) : Make Value := do
  match (← get).graph.entries? n with
  | some [(k, v)] => return .tuple [← value k, ← value v]
  | _ => fail "a mapping of one entry is missing"

def contents (n : Nat) : Make Value := do
  match (← get).graph.tag n with
  | .map => return .map (← entries n)
  | .set => return .set ((← entries n).map Prod.fst)
  | .omap | .pairs => items soleEntry n
  | _ => items value n

def collections : Nat → Array Value → Make (Array Value)
  | 0, found => return found
  | fuel + 1, found => do
    match (← get).begun[found.size]? with
    | none => return found
    | some n => collections fuel (found.push (← contents n))

end Make

def Graph.document (g : Graph) : Except Error Document :=
  let make : Make Document := do
    let root ← Make.value g.root
    let collections ← Make.collections (g.nodes.size + 1) #[]
    -- Reading goes through one call more than documents of another kind need.
    return { root, collections, levels := shownLevels - 1 }
  make.run' { graph := g, made := Array.replicate g.nodes.size none }

def read (delivery : Delivery) (text : Text) : Except Error Document := do
  match ← Graph.ofTokens? (.ofText delivery text) with
  | none => pure (.ofValue .null)
  | some g => g.document

end Chip8.Yaml
