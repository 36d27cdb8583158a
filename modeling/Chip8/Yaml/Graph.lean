import Chip8.Capacity
import Chip8.Text.Basic
import Chip8.Yaml.Error
import Chip8.Yaml.Tag

/-!
# Graphs of nodes

A document is a graph: its nodes are scalars, sequences and mappings, which mention one another
by number, because a node may stand in several places and even inside itself.
-/

namespace Chip8.Yaml

inductive Content where
  | scalar (text : Text)
  | sequence (items : List Nat)
  | mapping (entries : List (Nat × Nat))
  deriving Inhabited, Repr

structure Node where
  tag : Tag
  content : Content
  deriving Repr

def Node.empty : Node := ⟨.null, .scalar ""⟩

structure Graph where
  nodes : Array Node := #[]
  root : Nat := 0
  deriving Repr

namespace Graph

def node (g : Graph) (n : Nat) : Node := g.nodes.getD n .empty

def tag (g : Graph) (n : Nat) : Tag := (g.node n).tag

def items? (g : Graph) (n : Nat) : Option (List Nat) :=
  match (g.node n).content with
  | .sequence items => some items
  | _ => none

def entries? (g : Graph) (n : Nat) : Option (List (Nat × Nat)) :=
  match (g.node n).content with
  | .mapping entries => some entries
  | _ => none

def set (g : Graph) (n : Nat) (node : Node) : Graph :=
  { g with nodes := g.nodes.setIfInBounds n node }

def setEntries (g : Graph) (n : Nat) (entries : List (Nat × Nat)) : Graph :=
  g.set n ⟨g.tag n, .mapping entries⟩

def setTag (g : Graph) (n : Nat) (tag : Tag) : Graph :=
  g.set n ⟨tag, (g.node n).content⟩

/-- How many nodes inside one another are followed to the text of a scalar, one call each; sixteen
calls are under way where the first is. -/
def textDepth : Nat := callDepth - 16

/-- How many mappings that merge one another are settled, one call each below thirteen. -/
def mergeDepth : Nat := callDepth - 13

/-- The text of a node that is to be a scalar; a mapping gives the text of its value key. -/
def text (g : Graph) (n : Nat) : Except Error Text :=
  follow textDepth n
where
  follow : Nat → Nat → Except Error Text
    | 0, _ => .error .tooDeep
    | depth + 1, n =>
      match (g.node n).content with
      | .scalar text => .ok text
      | .sequence _ => .error (.malformed "a scalar is missing")
      | .mapping entries =>
        match entries.find? fun entry => g.tag entry.1 == .value with
        | some (_, inner) => follow depth inner
        | none => .error (.malformed "a scalar is missing")

end Graph

end Chip8.Yaml
