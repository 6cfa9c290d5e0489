import Dialogue.Yaml.Scalar

/-!
# Nodes of YAML

A `Node` is what a document holds: scalars, lists and maps. The keys of a map differ. The key `<<`
is no entry of its own: it adds the entries of other maps under keys that are not given otherwise.
A map that breaks these rules is `Node.broken`, which no reading accepts; but it spoils a document
only if it is looked at.

A `Part` is a node as it is built, together with what it adds to a map under `<<`.
-/

namespace Dialogue.Yaml

/-- What a document holds. -/
inductive Node where
  | scalar (s : Scalar)
  | list (items : List Node)
  | map (entries : List (Node × Node))
  /-- A map with a key twice, or with something else than maps under `<<`. -/
  | broken
  deriving Inhabited

/-- The entries of a map. -/
abbrev NodeEntries := List (Node × Node)

namespace Node

mutual
/-- Equal as keys: the way a text is written does not count, but its tag does. -/
def same : Node → Node → Bool
  | .scalar s, .scalar t => s.text == t.text && s.tag == t.tag
  | .list xs, .list ys => sameItems xs ys
  | .map es, .map fs => sameEntries es fs
  | _, _ => false
/-- Equal item by item. -/
def sameItems : List Node → List Node → Bool
  | [], [] => true
  | x :: xs, y :: ys => same x y && sameItems xs ys
  | _, _ => false
/-- Equal entry by entry. -/
def sameEntries : List (Node × Node) → List (Node × Node) → Bool
  | [], [] => true
  | (k, v) :: es, (l, w) :: fs => same k l && same v w && sameEntries es fs
  | _, _ => false
end

/-- Whether a node is null. -/
def isNull : Node → Bool
  | .scalar s => s.isNull
  | _ => false

/-- Whether a node is the key `<<`. -/
def isMerge : Node → Bool
  | .scalar s => s.isMerge
  | _ => false

/-- Whether a key is given among some entries. -/
def isGiven (key : Node) (entries : NodeEntries) : Bool := entries.any fun e => e.1.same key

/-- Whether a key is given twice. -/
def hasRepeat : NodeEntries → Bool
  | [] => false
  | (k, _) :: more => isGiven k more || hasRepeat more

/-- Some entries and behind them those of others whose keys are not given yet. -/
def addMissing (entries : NodeEntries) : NodeEntries → NodeEntries
  | [] => entries
  | (k, n) :: more =>
    if isGiven k entries then addMissing entries more
    else addMissing (entries ++ [(k, n)]) more

/-- The map of some entries and of those that `<<` adds. -/
def ofEntries (given added : NodeEntries) : Node :=
  if hasRepeat given then .broken else .map (addMissing given added)

end Node

/-- A node as it is built. -/
structure Part where
  node : Node
  /-- The entries that the node adds to a map under `<<`; none if it is no map, no list of such and
  not null. -/
  added : Option NodeEntries
  /-- How often a text, or the beginning or end of a collection, occurs in it. -/
  size : Nat

namespace Part

/-- The size of a collection of some parts. -/
def sizeAround (parts : List Part) : Nat := parts.foldl (fun n p => n + p.size) 2

/-- A scalar. -/
def scalar (s : Scalar) : Part :=
  ⟨.scalar s, if s.isNull then some [] else none, 1⟩

/-- A node without content. -/
def missing : Part := scalar .missing

/-- The entries that some parts add together: a later one goes before an earlier one. -/
def addedBy (parts : List Part) : Option NodeEntries :=
  (parts.mapM Part.added).map fun batches => batches.reverse.flatten

/-- A list. -/
def list (items : List Part) : Part :=
  ⟨.list (items.map (·.node)), addedBy items, sizeAround items⟩

/-- A map. What it adds to another one are its own entries and behind them what it is added. -/
def map (entries : List (Part × Part)) : Part :=
  let given := (entries.filter (!·.1.node.isMerge)).map fun e => (e.1.node, e.2.node)
  let merged := addedBy ((entries.filter (·.1.node.isMerge)).map (·.2))
  let size := sizeAround (entries.map (·.1) ++ entries.map (·.2))
  match merged with
  | some added => ⟨Node.ofEntries given added, some (given ++ added), size⟩
  | none => ⟨.broken, none, size⟩

end Part

/-! ### Untyped values -/

namespace Node

/-- A text, as a key. -/
def text? : Node → Option String
  | .scalar s => s.text?
  | _ => none

mutual
/-- The untyped value; the keys of maps are texts. -/
def toJson? : Node → Option Json
  | .scalar s => s.toJson?
  | .list items => (toJsonItems? items).map .array
  | .map entries => (toJsonEntries? entries).map fun es =>
    .object (es.foldl (fun (read : Entries) e => read.put e.1 e.2) [])
  | .broken => none
/-- The values of items. -/
def toJsonItems? : List Node → Option (List Json)
  | [] => some []
  | n :: ns => do return (← toJson? n) :: (← toJsonItems? ns)
/-- The values of entries. -/
def toJsonEntries? : List (Node × Node) → Option (List (String × Json))
  | [] => some []
  | (k, n) :: es => do return (← k.text?, ← toJson? n) :: (← toJsonEntries? es)
end

mutual
/-- Whether a node can be skipped: it has to be sound, whatever its keys are. -/
def isSound : Node → Bool
  | .scalar s => s.toJson?.isSome
  | .list items => soundItems items
  | .map entries => soundEntries entries
  | .broken => false
/-- Whether all items are sound. -/
def soundItems : List Node → Bool
  | [] => true
  | n :: ns => isSound n && soundItems ns
/-- Whether all entries are sound. -/
def soundEntries : List (Node × Node) → Bool
  | [] => true
  | (k, n) :: es => isSound k && isSound n && soundEntries es
end

end Node

end Dialogue.Yaml
