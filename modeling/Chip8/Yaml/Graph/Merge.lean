import Chip8.Yaml.Graph

/-!
# Merged mappings

A mapping can merge other mappings: their entries come in front of its own, and the merge key
itself disappears.  The mappings that it merges are settled first, in the graph itself, so that a
mapping that is merged into itself contributes the entries that it still has.
-/

namespace Chip8.Yaml.Graph

def entries (g : Graph) (n : Nat) : List (Nat × Nat) :=
  (g.entries? n).getD []

def takeMergeKey? (g : Graph) (n : Nat) : Option (Nat × Graph) :=
  let entries := g.entries n
  let isMerge (entry : Nat × Nat) : Bool := g.tag entry.1 == .merge
  (entries.find? isMerge).map fun (_, merged) =>
    (merged, g.setEntries n (entries.eraseP isMerge))

/-- Settles mappings one after the other; of their entries those of the last come first. -/
def settleItems (settle : Graph → Nat → Except Error Graph) (g : Graph) :
    List Nat → List (Nat × Nat) → Except Error (List (Nat × Nat) × Graph)
  | [], found => .ok (found, g)
  | item :: rest, found => do
    if (g.entries? item).isNone then throw (.malformed "a mapping to merge is missing")
    let g ← settle g item
    settleItems settle g rest (g.entries item ++ found)

/-- The entries that a node under a merge key contributes: those of a mapping, or of the mappings
in a sequence. -/
def contributed (settle : Graph → Nat → Except Error Graph) (g : Graph) (n : Nat) :
    Except Error (List (Nat × Nat) × Graph) :=
  match (g.node n).content with
  | .mapping _ => (settle g n).map fun g => (g.entries n, g)
  | .sequence items => settleItems settle g items []
  | .scalar _ => .error (.malformed "a mapping to merge is missing")

def takeMerged (settle : Graph → Nat → Except Error Graph) (n : Nat) :
    Nat → Graph → List (Nat × Nat) → Except Error (List (Nat × Nat) × Graph)
  | 0, g, found => .ok (found, g)
  | fuel + 1, g, found =>
    match g.takeMergeKey? n with
    | none => .ok (found, g)
    | some (merged, g) => do
      let (more, g) ← contributed settle g merged
      takeMerged settle n fuel g (found ++ more)

def settleValueKeys (g : Graph) (n : Nat) : Graph :=
  (g.entries n).foldl (fun g (key, _) => if g.tag key == .value then g.setTag key .str else g) g

/-- Settles a mapping: puts the entries that it merges in front of its own and makes texts of its
value keys. -/
def settle : Nat → Graph → Nat → Except Error Graph
  | 0, _, _ => .error .tooDeep
  | depth + 1, g, n => do
    let (merged, g) ← takeMerged (settle depth) n (g.entries n).length g []
    let g := g.settleValueKeys n
    pure (if merged.isEmpty then g else g.setEntries n (merged ++ g.entries n))

def settled (g : Graph) (n : Nat) : Except Error Graph :=
  g.settle mergeDepth n

end Chip8.Yaml.Graph
