import Verdict.Yaml.Tag
import Verdict.Yaml.Timestamp
import Verdict.Yaml.Token
/-!
# Nodes

A document is a tree of nodes: scalars, sequences and mappings, each with a tag. Aliases are
replaced by the nodes that they mean, except where an alias stands inside the very collection that
it means; there it says how deep that collection stands. A scalar in quotes is a text unless it has
a tag, and one without quotes has the tag that its form suggests; a place where a node may stand and
none does holds an empty scalar.
-/

namespace Verdict.Yaml

/-- A node of a document. -/
inductive Node where
  /-- A scalar. -/
  | scalar (tag : Tag) (text : String)
  /-- Nodes in a row. -/
  | sequence (tag : Tag) (items : List Node)
  /-- Nodes under keys. -/
  | mapping (tag : Tag) (entries : List (Node × Node))
  /-- The alias of a collection in which it stands, `depth` collections standing around that. -/
  | enclosing (tag : Tag) (isMapping : Bool) (depth : Nat)

instance : Inhabited Node := ⟨.scalar .null ""⟩

namespace Node

/-- The text without a line feed at its end, unless it is nothing else. -/
def dropFinalBreak (cs : List Char) : List Char :=
  if 1 < cs.length ∧ cs.getLast? = some '\n' then cs.dropLast else cs

/-- The tag that the form of a scalar suggests; a line feed at its end does not count. The marks of
tags, anchors and aliases have a tag without values. -/
def formTag (text : String) : Tag :=
  let cs := dropFinalBreak text.toList
  let s := String.ofList cs
  if Tag.isTruth s then .bool
  else if Tag.isFloat cs then .float
  else if Tag.isInt cs then .int
  else if s = "<<" then .merge
  else if Tag.isNull s then .null
  else if Timestamp.isForm cs then .timestamp
  else if s = "=" then .value
  else if ["!", "&", "*"].contains s then .other (Tag.stem ++ "yaml")
  else .str

/-- The empty scalar of a place without a node. -/
def nothing : Node := .scalar .null ""

mutual

/-- A node that stood below `depth` collections, below `depth'` collections. Aliases of what is
inside the node go with it, and those of what is around it stay. -/
def moved (depth depth' : Nat) : Node → Node
  | .scalar tag text => .scalar tag text
  | .sequence tag items => .sequence tag (movedItems depth depth' items)
  | .mapping tag entries => .mapping tag (movedEntries depth depth' entries)
  | .enclosing tag isMapping d =>
    .enclosing tag isMapping (if d < depth then d else d + depth' - depth)

/-- The nodes of a row at another depth. -/
def movedItems (depth depth' : Nat) : List Node → List Node
  | [] => []
  | n :: ns => moved depth depth' n :: movedItems depth depth' ns

/-- The nodes of entries at another depth. -/
def movedEntries (depth depth' : Nat) : List (Node × Node) → List (Node × Node)
  | [] => []
  | (k, v) :: es => (moved depth depth' k, moved depth depth' v) :: movedEntries depth depth' es

end

/-! ## From tokens to nodes -/

/-- What an anchor means. -/
structure Anchored where
  /-- The node. -/
  node : Node
  /-- The number of collections around it. -/
  depth : Nat

/-- What is known while nodes are built. -/
structure State where
  /-- The tokens to come. -/
  tokens : List Token
  /-- What the anchors mean. -/
  anchors : List (String × Anchored)
  /-- The number of open collections. -/
  depth : Nat

/-- A step in building nodes. -/
abbrev Build (α : Type) := StateT State (Except Problem) α

/-- The next token. -/
def peek : Build (Option Token) := fun s => .ok (s.tokens.head?, s)

/-- Goes on to the token behind the next one. -/
def next : Build Unit := fun ⟨ts, anchors, depth⟩ => .ok ((), ⟨ts.tail, anchors, depth⟩)

/-- Ends in a problem. -/
def stop {α : Type} (p : Problem) : Build α := fun _ => .error p

/-- Whether the next token is one of the given ones. -/
def isNext (ts : List Token) : Build Bool := do
  match ← peek with
  | some t => return ts.contains t
  | none => return false

/-- Whether the next token is the given one, which is then passed. -/
def passed (t : Token) : Build Bool := do
  if ← isNext [t] then
    next
    return true
  else return false

/-- The node that an alias means. -/
def anchored (name : String) : Build Node := fun s =>
  match s.anchors.lookup name with
  | some a => .ok (a.node.moved a.depth s.depth, s)
  | none => .error (.undefinedAlias name)

/-- Gives a node an anchor that no node has yet. -/
def register (name : Option String) (n : Node) : Build Node := fun s =>
  match name with
  | none => .ok (n, s)
  | some name =>
    if (s.anchors.lookup name).isSome then .error (.repeatedAnchor name)
    else .ok (n, { s with anchors := (name, ⟨n, s.depth⟩) :: s.anchors })

/-- Gives an anchor to another node, that it did not have before. -/
def reassign (name : Option String) (n : Node) : Build Node := fun s =>
  let renewed := s.anchors.map fun e => if some e.1 = name then (e.1, ⟨n, s.depth⟩) else e
  .ok (n, { s with anchors := renewed })

/-- Goes into a collection, and gives the number of those around it. -/
def enter : Build Nat := fun ⟨ts, anchors, depth⟩ => .ok (depth, ⟨ts, anchors, depth + 1⟩)

/-- Goes out of a collection with a number of collections around it. -/
def leave (depth : Nat) : Build Unit := fun ⟨ts, anchors, _⟩ => .ok ((), ⟨ts, anchors, depth⟩)

/-- The collection that `make` makes of what `build` finds in it. Its anchor means it as a whole,
and inside it the collection around. -/
def collectionOf {α : Type} (name : Option String) (tag : Tag) (isMapping : Bool)
    (build : Build α) (make : α → Node) : Build Node := do
  let depth ← enter
  let _ ← register name (.enclosing tag isMapping depth)
  let inside ← build
  leave depth
  reassign name (make inside)

/-- The sequence of the items that `build` finds. -/
def sequenceOf (name : Option String) (tag : Tag) (build : Build (List Node)) : Build Node :=
  collectionOf name tag false build (.sequence tag)

/-- The mapping of the entries that `build` finds. -/
def mappingOf (name : Option String) (tag : Tag) (build : Build (List (Node × Node))) :
    Build Node :=
  collectionOf name tag true build (.mapping tag)

/-- What stands in front of a node. -/
structure Properties where
  /-- Its anchor. -/
  anchor : Option String
  /-- Its tag: the handle, if there is one, and the rest. -/
  tag : Option (Option String × String)

/-- The anchor in front of a node. -/
def anchorNext : Build (Option String) := do
  match ← peek with
  | some (.anchor name) =>
    next
    return some name
  | _ => return none

/-- The tag in front of a node. -/
def tagNext : Build (Option (Option String × String)) := do
  match ← peek with
  | some (.tag handle suffix) =>
    next
    return some (handle, suffix)
  | _ => return none

/-- The anchor and the tag in front of a node, in either order. -/
def properties : Build Properties := do
  match ← anchorNext with
  | some name => return ⟨some name, ← tagNext⟩
  | none =>
    match ← tagNext with
    | some tag => return ⟨← anchorNext, some tag⟩
    | none => return ⟨none, none⟩

/-- The tag with its handle replaced by its meaning. -/
def expandTag (handles : List (String × String)) :
    Option (Option String × String) → Except Problem (Option String)
  | none => .ok none
  | some (none, suffix) => .ok (some suffix)
  | some (some handle, suffix) =>
    match handles.lookup handle with
    | some stem => .ok (some (stem ++ suffix))
    | none => .error (.undefinedHandle handle)

/-- The tag of a collection. -/
def collectionTag (tag : Option String) (default : Tag) : Tag :=
  match tag with
  | none => default
  | some "!" => default
  | some uri => .ofUri uri

/-- The tag of a scalar: given, suggested by its form, or the tag of texts. -/
def scalarTag (tag : Option String) (plain : Bool) (text : String) : Tag :=
  match tag with
  | none => if plain then formTag text else .str
  | some "!" => formTag text
  | some uri => .ofUri uri

mutual

/-- The next node. A block collection may stand here if `block` holds, and a sequence without
indentation if `flush` holds. -/
def node (handles : List (String × String)) : Nat → Bool → Bool → Build Node
  | 0, _, _ => stop .unfinished
  | fuel + 1, block, flush => do
    match ← peek with
    | some (.alias name) =>
      next
      anchored name
    | _ =>
      let p ← properties
      let tag ← liftM (expandTag handles p.tag)
      let seqTag := collectionTag tag .seq
      let mapTag := collectionTag tag .map
      match ← peek with
      | some (.scalar text plain) =>
        next
        register p.anchor (.scalar (scalarTag tag plain text) text)
      | some .blockEntry =>
        if flush then sequenceOf p.anchor seqTag (flushItems handles fuel)
        else emptyNode p tag
      | some .flowSequenceStart =>
        next
        sequenceOf p.anchor seqTag (flowItems handles fuel true)
      | some .flowMappingStart =>
        next
        mappingOf p.anchor mapTag (flowEntries handles fuel true)
      | some .blockSequenceStart =>
        if block then
          next
          sequenceOf p.anchor seqTag (blockItems handles fuel)
        else emptyNode p tag
      | some .blockMappingStart =>
        if block then
          next
          mappingOf p.anchor mapTag (blockEntries handles fuel)
        else emptyNode p tag
      | _ => emptyNode p tag
where
  /-- The empty scalar that an anchor or a tag may have. -/
  emptyNode (p : Properties) (tag : Option String) : Build Node :=
    if p.anchor.isNone ∧ p.tag.isNone then stop .expectedNode
    else register p.anchor (.scalar (scalarTag tag true "") "")

/-- The items of a block sequence, up to its end. -/
def blockItems (handles : List (String × String)) : Nat → Build (List Node)
  | 0 => stop .unfinished
  | fuel + 1 => do
    if ← passed .blockEntry then
      let item ← if ← isNext [.blockEntry, .blockEnd] then pure nothing
        else node handles fuel true false
      return item :: (← blockItems handles fuel)
    else if ← passed .blockEnd then return []
    else stop .expectedEntry

/-- The items of a sequence that is not indented. -/
def flushItems (handles : List (String × String)) : Nat → Build (List Node)
  | 0 => stop .unfinished
  | fuel + 1 => do
    if ← passed .blockEntry then
      let item ← if ← isNext [.blockEntry, .key, .value, .blockEnd] then pure nothing
        else node handles fuel true false
      return item :: (← flushItems handles fuel)
    else return []

/-- The entries of a block mapping, up to its end. -/
def blockEntries (handles : List (String × String)) : Nat → Build (List (Node × Node))
  | 0 => stop .unfinished
  | fuel + 1 => do
    if ← passed .key then
      let key ← if ← isNext [.key, .value, .blockEnd] then pure nothing
        else node handles fuel true true
      let value ← if ← passed .value then
          if ← isNext [.key, .value, .blockEnd] then pure nothing else node handles fuel true true
        else pure nothing
      return (key, value) :: (← blockEntries handles fuel)
    else if ← passed .blockEnd then return []
    else stop .expectedEntry

/-- The items of a sequence in brackets, up to its end. A key among them is a mapping of one entry.
-/
def flowItems (handles : List (String × String)) : Nat → Bool → Build (List Node)
  | 0, _ => stop .unfinished
  | fuel + 1, first => do
    if ← passed .flowSequenceEnd then return []
    else
      if !first then
        if !(← passed .flowEntry) then stop .expectedEntry
      if ← passed .key then
        let key ← if ← isNext [.value, .flowEntry, .flowSequenceEnd] then pure nothing
          else node handles fuel false false
        let value ← if ← passed .value then
            if ← isNext [.flowEntry, .flowSequenceEnd] then pure nothing
            else node handles fuel false false
          else pure nothing
        return .mapping .map [(key, value)] :: (← flowItems handles fuel false)
      else if ← passed .flowSequenceEnd then return []
      else
        let item ← node handles fuel false false
        return item :: (← flowItems handles fuel false)

/-- The entries of a mapping in brackets, up to its end. -/
def flowEntries (handles : List (String × String)) : Nat → Bool → Build (List (Node × Node))
  | 0, _ => stop .unfinished
  | fuel + 1, first => do
    if ← passed .flowMappingEnd then return []
    else
      if !first then
        if !(← passed .flowEntry) then stop .expectedEntry
      if ← passed .key then
        let key ← if ← isNext [.value, .flowEntry, .flowMappingEnd] then pure nothing
          else node handles fuel false false
        let value ← if ← passed .value then
            if ← isNext [.flowEntry, .flowMappingEnd] then pure nothing
            else node handles fuel false false
          else pure nothing
        return (key, value) :: (← flowEntries handles fuel false)
      else if ← passed .flowMappingEnd then return []
      else
        let key ← node handles fuel false false
        return (key, nothing) :: (← flowEntries handles fuel false)

end

/-! ## Documents -/

/-- Whether a token is a directive. -/
def isDirective : Token → Bool
  | .directive _ => true
  | _ => false

/-- The version among directives, given once at most and supported. -/
def checkVersions : Bool → List Token → Except Problem Unit
  | _, [] => .ok ()
  | seen, .directive (.version major _) :: ts =>
    -- a second one is a problem even if it is the same
    if seen then .error .repeatedDirective
    else if major ≠ 1 then .error (.unsupportedVersion major)
    else checkVersions true ts
  | seen, _ :: ts => checkVersions seen ts

/-- The handles that directives define, each once at most. -/
def definedHandles : List Token → List (String × String) → Except Problem (List (String × String))
  | [], handles => .ok handles
  | .directive (.handle name stem) :: ts, handles =>
    if (handles.lookup name).isSome then .error .repeatedDirective
    else definedHandles ts (handles ++ [(name, stem)])
  | _ :: ts, handles => definedHandles ts handles

/-- The handles that are defined unless a directive defines them otherwise. -/
def defaultHandles : List (String × String) := [("!", "!"), ("!!", Tag.stem)]

/-- The node of a document whose tokens follow its directives and its start, and the tokens left. -/
def content (handles : List (String × String)) (ts : List Token) :
    Except Problem (Node × List Token) := do
  let (n, s) ← (node handles (4 * ts.length + 4) true false).run ⟨ts, [], 0⟩
  return (n, s.tokens)

/-- The node of an explicit document, whose start is marked, and the tokens left. -/
def explicitDocument (ts : List Token) : Except Problem (Node × List Token) := do
  let directives := ts.takeWhile isDirective
  checkVersions false directives
  let handles ← definedHandles directives []
  match ts.dropWhile isDirective with
  | .documentStart :: rest =>
    match rest with
    | [] => return (nothing, [])
    | .directive _ :: _ | .documentStart :: _ | .documentEnd :: _ => return (nothing, rest)
    | _ => content (handles ++ defaultHandles) rest
  | _ => .error .expectedDocument

/-- The node of the one document that the tokens hold; no tokens are no document. -/
def ofTokens? (ts : List Token) : Except Problem (Option Node) := do
  match ts with
  | [] => return none
  | t :: _ =>
    let (n, rest) ← if isDirective t ∨ t = .documentStart then explicitDocument ts
      else content defaultHandles ts
    if (rest.dropWhile fun t => t = .documentEnd).isEmpty then return some n
    else .error .severalDocuments

end Node

end Verdict.Yaml
