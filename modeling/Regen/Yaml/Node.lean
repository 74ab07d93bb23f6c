import Regen.Yaml.Token

/-!
From YAML tokens to the tree of nodes of a document.  A node may be given an
anchor; a reference then stands for the node with that anchor.
-/

namespace Regen.Yaml

/-- What is written in front of a node.  Anchors are known by number. -/
structure Properties where
  anchor : Option Nat := none
  tag : Option Tag := none
  deriving DecidableEq, Repr

inductive Node where
  | scalar (properties : Properties) (style : Style) (text : String)
  | sequence (properties : Properties) (items : List Node)
  | mapping (properties : Properties) (entries : List (Node × Node))
  | reference (anchor : Nat)
  deriving Repr

namespace Node

def empty : Node := .scalar {} .plain ""

/-! ## Anchors -/

mutual

def anchored? (anchor : Nat) : Node → Option Node
  | .scalar p style text =>
      if p.anchor = some anchor then some (.scalar p style text) else none
  | .sequence p items =>
      (anchoredAmong? anchor items).or
        (if p.anchor = some anchor then some (.sequence p items) else none)
  | .mapping p entries =>
      (anchoredIn? anchor entries).or
        (if p.anchor = some anchor then some (.mapping p entries) else none)
  | .reference _ => none

def anchoredAmong? (anchor : Nat) : List Node → Option Node
  | [] => none
  | n :: ns => (anchoredAmong? anchor ns).or (anchored? anchor n)

def anchoredIn? (anchor : Nat) : List (Node × Node) → Option Node
  | [] => none
  | (key, value) :: entries =>
      ((anchoredIn? anchor entries).or (anchored? anchor value)).or
        (anchored? anchor key)

end

def resolve (root : Node) : Node → Node
  | .reference anchor => (root.anchored? anchor).getD empty
  | n => n

end Node

/-! ## Reading -/

structure ReadState where
  tokens : List Token
  anchors : List (String × Nat) := []

abbrev Reader := StateT ReadState Option

namespace Reader

def peek : Reader (Option Token) := do
  return (← get).tokens.head?

def advance : Reader Unit :=
  modify fun s => { s with tokens := s.tokens.tail }

def expect (t : Token) : Reader Unit := do
  if (← peek) = some t then advance else failure

/-- Gives an anchor a number; a name may be used again. -/
def addAnchor (name : String) : Reader Nat := do
  let s ← get
  let number := s.anchors.length
  let others := s.anchors.filter fun a => a.1 != name
  set { s with anchors := others ++ [(name, number)] }
  return number

def anchorOf (name : String) : Reader Nat := do
  (← get).anchors.lookup name

abbrev Handles := List (String × Tag)

def resolveTag (handles : Handles) (handle : String) (suffix : Tag) :
    Option Tag :=
  if handle.isEmpty then some suffix
  else (handles.lookup handle).map (·.append suffix)

def readTag (handles : Handles) : Reader (Option Tag) := do
  match ← peek with
  | some (.tag handle suffix) =>
      advance
      return some (← resolveTag handles handle suffix)
  | _ => return none

def readAnchor : Reader (Option Nat) := do
  match ← peek with
  | some (.anchor name) =>
      advance
      return some (← addAnchor name)
  | _ => return none

def readProperties (handles : Handles) : Reader Properties := do
  match ← readAnchor with
  | some anchor => return { anchor := anchor, tag := ← readTag handles }
  | none =>
      let tag ← readTag handles
      return { anchor := ← readAnchor, tag := tag }

/-- Where one of these tokens comes next, a node is left out. -/
def orEmpty (ends : List Token) (read : Reader Node) : Reader Node := do
  match ← peek with
  | some t => if ends.contains t then return .empty else read
  | none => read

mutual

/--
Reads a node.  In flow context there are no block collections; the value of a
block mapping may be a sequence without indentation of its own.
-/
def readNode (handles : Handles) :
    (fuel : Nat) → (inBlock unindented : Bool) → Reader Node
  | 0, _, _ => failure
  | fuel + 1, inBlock, unindented => do
      match ← peek with
      | some (.reference name) =>
          advance
          return .reference (← anchorOf name)
      | _ =>
          let p ← readProperties handles
          readContent handles fuel inBlock unindented p

def readContent (handles : Handles) :
    (fuel : Nat) → (inBlock unindented : Bool) → Properties → Reader Node
  | 0, _, _, _ => failure
  | fuel + 1, inBlock, unindented, p => do
      match ← peek, inBlock, unindented with
      | some .blockEntry, _, true =>
          return .sequence p (← readUnindented handles fuel)
      | some (.scalar style text), _, _ =>
          advance
          return .scalar p style text
      | some .flowSequence, _, _ =>
          advance
          return .sequence p (← readFlowItems handles fuel true)
      | some .flowMapping, _, _ =>
          advance
          return .mapping p (← readFlowEntries handles fuel true)
      | some .blockSequence, true, _ =>
          advance
          return .sequence p (← readItems handles fuel)
      | some .blockMapping, true, _ =>
          advance
          return .mapping p (← readEntries handles fuel)
      | _, _, _ =>
          if p = {} then failure else return .scalar p .plain ""

def readItems (handles : Handles) : (fuel : Nat) → Reader (List Node)
  | 0 => failure
  | fuel + 1 => do
      match ← peek with
      | some .blockEntry =>
          advance
          let item ← orEmpty [.blockEntry, .blockEnd]
            (readNode handles fuel true false)
          return item :: (← readItems handles fuel)
      | some .blockEnd =>
          advance
          return []
      | _ => failure

def readUnindented (handles : Handles) : (fuel : Nat) → Reader (List Node)
  | 0 => failure
  | fuel + 1 => do
      match ← peek with
      | some .blockEntry =>
          advance
          let item ← orEmpty [.blockEntry, .key, .value, .blockEnd]
            (readNode handles fuel true false)
          return item :: (← readUnindented handles fuel)
      | _ => return []

def readEntries (handles : Handles) : (fuel : Nat) → Reader (List (Node × Node))
  | 0 => failure
  | fuel + 1 => do
      match ← peek with
      | some .key =>
          advance
          let ends : List Token := [.key, .value, .blockEnd]
          let key ← orEmpty ends (readNode handles fuel true true)
          let value ← readValue handles fuel true ends
          return (key, value) :: (← readEntries handles fuel)
      | some .blockEnd =>
          advance
          return []
      | _ => failure

def readValue (handles : Handles) :
    (fuel : Nat) → (inBlock : Bool) → (ends : List Token) → Reader Node
  | 0, _, _ => failure
  | fuel + 1, inBlock, ends => do
      match ← peek with
      | some .value =>
          advance
          orEmpty ends (readNode handles fuel inBlock inBlock)
      | _ => return .empty

def readFlowItems (handles : Handles) :
    (fuel : Nat) → (first : Bool) → Reader (List Node)
  | 0, _ => failure
  | fuel + 1, first => do
      match ← peek with
      | some .flowSequenceEnd =>
          advance
          return []
      | _ =>
          unless first do expect .flowEntry
          match ← peek with
          | some .key =>
              advance
              let pair ← readFlowPair handles fuel
              return pair :: (← readFlowItems handles fuel false)
          | some .flowSequenceEnd =>
              advance
              return []
          | _ =>
              let item ← readNode handles fuel false false
              return item :: (← readFlowItems handles fuel false)

/--
A mapping of one entry that is written as an item.  If its key is left out, the
token in place of the key is passed over, whatever it is.
-/
def readFlowPair (handles : Handles) : (fuel : Nat) → Reader Node
  | 0 => failure
  | fuel + 1 => do
      let ends : List Token := [.flowEntry, .flowSequenceEnd]
      if (← peek).any (.value :: ends).contains then
        advance
        let value ← readValue handles fuel false ends
        return .mapping {} [(.empty, value)]
      else
        let key ← readNode handles fuel false false
        let value ← readValue handles fuel false ends
        return .mapping {} [(key, value)]

def readFlowEntries (handles : Handles) :
    (fuel : Nat) → (first : Bool) → Reader (List (Node × Node))
  | 0, _ => failure
  | fuel + 1, first => do
      match ← peek with
      | some .flowMappingEnd =>
          advance
          return []
      | _ =>
          unless first do expect .flowEntry
          match ← peek with
          | some .key =>
              advance
              let ends : List Token := [.flowEntry, .flowMappingEnd]
              let key ← orEmpty (.value :: ends)
                (readNode handles fuel false false)
              let value ← readValue handles fuel false ends
              return (key, value) :: (← readFlowEntries handles fuel false)
          | some .flowMappingEnd =>
              advance
              return []
          | _ =>
              let key ← readNode handles fuel false false
              return (key, .empty) :: (← readFlowEntries handles fuel false)

end

/-! ## Documents -/

structure Directives where
  hasVersion : Bool := false
  handles : Handles := []

def readDirectives : (fuel : Nat) → Directives → Reader Directives
  | 0, _ => failure
  | fuel + 1, d => do
      match ← peek with
      | some (.version major minor) =>
          if d.hasVersion || major != 1 || (minor != 1 && minor != 2) then
            failure
          else
            advance
            readDirectives fuel { d with hasVersion := true }
      | some (.tagDirective handle start) =>
          if (d.handles.lookup handle).isSome then failure
          else
            advance
            readDirectives fuel
              { d with handles := d.handles ++ [(handle, start)] }
      | _ => return d

def standardHandles : Handles :=
  [("!", .mark), ("!!", .ofString "tag:yaml.org,2002:")]

def endsDocument : Token → Bool
  | .version _ _ | .tagDirective _ _ | .documentStart | .documentEnd => true
  | _ => false

def opensExplicit : Token → Bool
  | .version _ _ | .tagDirective _ _ | .documentStart => true
  | _ => false

def readOnly (fuel : Nat) : Reader (Option Node) := do
  match ← peek with
  | none => return none
  | some t =>
      let explicit := opensExplicit t
      let d ← readDirectives fuel {}
      if explicit then expect .documentStart
      let handles := d.handles ++ standardHandles
      match ← peek with
      | none => return some .empty
      | some t =>
          if explicit && endsDocument t then return some .empty
          else return some (← readNode handles fuel true false)

end Reader

/--
The document of a text: `none` if the text is ill formed or holds several
documents, `some none` if it holds none at all.
-/
def document? (text : String) : Option (Option Node) := do
  let tokens ← tokens? text
  let (document, s) ←
    (Reader.readOnly (4 * tokens.length + 4)).run { tokens := tokens }
  if s.tokens.all (· == .documentEnd) then return document else none

end Regen.Yaml
