import Verdict.Yaml.Node
import Verdict.Yaml.Scalar
/-!
# Values of nodes

The value of a document is found level by level: first the root, then what stands in it, then what
stands in that. So of several failures the one nearest to the root counts, and of equally near ones
the first. A mapping first takes over the entries of the mappings that are merged into it, where
earlier ones win and its own entries win over all; then its keys and values are found in turn.
-/

namespace Verdict.Yaml

/-- A value, or a failure and the level at which it arises. -/
abbrev Leveled (α : Type) := Except (Nat × Failure Problem) α

namespace Leveled

variable {α β : Type}

/-- An attempt at a level. -/
def arising (level : Nat) : Attempt α → Leveled α
  | .ok a => .ok a
  | .error e => .error (level, e)

/-- Two results, or the failure nearer to the root; the first if both are equally near. -/
def both : Leveled α → Leveled β → Leveled (α × β)
  | .ok a, .ok b => .ok (a, b)
  | .error e, .ok _ => .error e
  | .ok _, .error e => .error e
  | .error e, .error f => if f.1 < e.1 then .error f else .error e

end Leveled

namespace Node

/-- The text that stands for a node where a scalar is asked for: its own, or for a mapping that of
its default entry. -/
def scalarText? : Node → Option String
  | .scalar _ text => some text
  | .sequence _ _ | .enclosing _ _ _ => none
  | .mapping _ entries => defaultText? entries
where
  /-- The text of the first entry whose key is the default mark. -/
  defaultText? : List (Node × Node) → Option String
    | [] => none
    | (.scalar .value _, v) :: _ => scalarText? v
    | _ :: es => defaultText? es

/-- The tag of a node. -/
def tag : Node → Tag
  | .scalar tag _ => tag
  | .sequence tag _ => tag
  | .mapping tag _ => tag
  | .enclosing tag _ _ => tag

/-- Whether the values with a tag are collections. -/
def isCollectionTag : Tag → Bool
  | .seq | .map | .set | .omap | .pairs => true
  | _ => false

/-- The value of a node whose tag is not that of a collection. The form of a timestamp is looked for
in what the node itself holds, which is no text if the node is a mapping. -/
def scalarNodeValue (n : Node) : Attempt Value :=
  match n.tag with
  | .merge | .value | .other _ => refuse (.unknownTag n.tag.uri)
  | _ =>
    match n.scalarText?, n with
    | none, _ => refuse (.wrongKind n.tag.uri)
    | some _, .mapping .timestamp _ =>
      .error (.fault (.outside "TypeError" "expected string or bytes-like object, got 'list'"))
    | some text, _ => scalarValue n.tag text

/-- Whether a key is the mark of a merge. -/
def isMerge (key : Node) : Bool := key.tag = .merge

mutual

/-- Whether entries merge nothing but mappings, and these again nothing but mappings. -/
def mergesOnlyMappings : List (Node × Node) → Bool
  | [] => true
  | (k, v) :: es => (!isMerge k || isMergeable v) && mergesOnlyMappings es

/-- Whether a node is a mapping or a list of mappings that can be merged. -/
def isMergeable : Node → Bool
  | .scalar _ _ => false
  | .sequence _ items => allMergeable items
  | .mapping _ entries => mergesOnlyMappings entries
  | .enclosing _ isMapping _ => isMapping

/-- Whether all nodes are mappings that can be merged. -/
def allMergeable : List Node → Bool
  | [] => true
  | .mapping _ entries :: ns => mergesOnlyMappings entries && allMergeable ns
  | .enclosing _ isMapping _ :: ns => isMapping && allMergeable ns
  | _ :: _ => false

end

/-- The value of a key that is not a collection; a default mark is a text. -/
def keyValue (key : Node) : Attempt Value :=
  if isCollectionTag key.tag then refuse .collectionAsKey
  else
    match key with
    | .scalar .value text => .ok (.text text)
    | _ => key.scalarNodeValue

mutual

/-- The value of a node that stands at a level. -/
def valueAt (level : Nat) : Node → Leveled Value
  | .scalar tag text =>
    if isCollectionTag tag then .error (level + 1, .declared (.wrongKind tag.uri))
    else Leveled.arising level (scalarNodeValue (.scalar tag text))
  | .sequence tag items =>
    match tag with
    | .seq => (itemValues (level + 1) items).map .list
    | .omap | .pairs => (pairValues (level + 1) items).map .list
    | .map | .set => .error (level + 1, .declared (.wrongKind tag.uri))
    | _ => Leveled.arising level (scalarNodeValue (.sequence tag items))
  | .mapping tag entries =>
    match tag with
    | .map | .set =>
      if mergesOnlyMappings entries then
        (Leveled.both (mergedPairs (level + 1) entries) (ownPairs (level + 1) entries)).map fun p =>
          -- merged pairs come first, so that the own ones win
          let pairs := Value.ofPairs (p.1 ++ p.2)
          if tag = .map then .map pairs else .set (pairs.map Prod.fst)
      else .error (level + 1, .declared .badMerge)
    | .seq | .omap | .pairs => .error (level + 1, .declared (.wrongKind tag.uri))
    | _ => Leveled.arising level (scalarNodeValue (.mapping tag entries))
  | .enclosing tag isMapping depth =>
    match tag with
    | .seq | .omap | .pairs => .ok (.enclosing (level - 1 - depth) false)
    | .map | .set => .ok (.enclosing (level - 1 - depth) true)
    | _ => Leveled.arising level (scalarNodeValue (.enclosing tag isMapping depth))

/-- The values of nodes at a level, in order. -/
def itemValues (level : Nat) : List Node → Leveled (List Value)
  | [] => .ok []
  | n :: ns =>
    (Leveled.both (valueAt level n) (itemValues level ns)).map fun p => p.1 :: p.2

/-- The pairs of nodes that are mappings of one entry each. -/
def pairValues (level : Nat) : List Node → Leveled (List Value)
  | [] => .ok []
  | .mapping _ [(k, v)] :: ns =>
    (Leveled.both (Leveled.both (valueAt level k) (valueAt level v)) (pairValues level ns)).map
      fun p => .tuple [p.1.1, p.1.2] :: p.2
  | _ :: _ => .error (level, .declared .badPair)

/-- The pairs that the entries of a mapping merge into it. -/
def mergedPairs (level : Nat) : List (Node × Node) → Leveled (List (Value × Value))
  | [] => .ok []
  | (k, v) :: es =>
    if isMerge k then
      (Leveled.both (sourcePairs level v) (mergedPairs level es)).map fun p => p.1 ++ p.2
    else mergedPairs level es

/-- The pairs that a node gives to a mapping into which it is merged. -/
def sourcePairs (level : Nat) : Node → Leveled (List (Value × Value))
  | .scalar _ _ | .enclosing _ _ _ => .ok []
  | .sequence _ items => listedPairs level items
  | .mapping _ entries =>
    (Leveled.both (mergedPairs level entries) (ownPairs level entries)).map fun p => p.1 ++ p.2

/-- The pairs that mappings in a row give to a mapping into which they are merged, the last one
first. -/
def listedPairs (level : Nat) : List Node → Leveled (List (Value × Value))
  | [] => .ok []
  | n :: ns => (Leveled.both (listedPairs level ns) (sourcePairs level n)).map fun p => p.1 ++ p.2

/-- The pairs of a mapping's entries that merge nothing. -/
def ownPairs (level : Nat) : List (Node × Node) → Leveled (List (Value × Value))
  | [] => .ok []
  | (k, v) :: es =>
    if isMerge k then ownPairs level es
    else
      (Leveled.both (Leveled.both (Leveled.arising level (keyValue k)) (valueAt level v))
        (ownPairs level es)).map fun p => p.1 :: p.2

end

/-- The value of the root of a document. -/
def value (n : Node) : Attempt Value :=
  match n.valueAt 0 with
  | .ok v => .ok v
  | .error e => .error e.2

end Node

end Verdict.Yaml
