import Workflow.Yaml.Node
import Workflow.Yaml.Token

/-!
# The nodes of a text

The grammar by which tokens make up nodes.  A text has to hold exactly one document.

Anchors get numbers as they occur: the number of names known so far.  A name that occurs again takes
a new number, and the next new name then takes the same one.

Each rule that applies another one of its own spends some fuel, and between two tokens there are at
most three such steps, so four times the number of tokens is always enough.
-/

namespace Workflow.Yaml

/-- What the rules of the grammar go by: the tokens ahead, and the numbers of the anchors so far. -/
structure Outlook where
  tokens : List Token
  anchors : List (String × Nat) := []
  deriving Repr

/-- A rule of the grammar, which may refuse the tokens ahead. -/
abbrev Rule (α : Type) := StateT Outlook Option α

namespace Rule

/-- The token ahead. -/
def peek : Rule (Option Token) := return (← get).tokens.head?

/-- Goes past a token. -/
def skip : Rule Unit := modify fun o => { o with tokens := o.tokens.tail }

/-- Goes past a token if it is the one ahead. -/
def take (t : Token) : Rule Bool := do
  if (← peek) == some t then
    skip
    return true
  else return false

/-- Goes past a token that has to be ahead. -/
def expect (t : Token) : Rule Unit := do
  if !(← take t) then failure

/-- Whether one of some tokens is ahead. -/
def isAhead (ts : List Token) : Rule Bool := return (← peek).any ts.contains

/-- The number of a new anchor. -/
def number (name : String) : Rule Nat := do
  let o ← get
  let n := o.anchors.length
  let anchors :=
    if (o.anchors.lookup name).isSome then
      o.anchors.map fun (name', m) => (name', if name' = name then n else m)
    else (name, n) :: o.anchors
  set { o with anchors }
  return n

/-- The anchor ahead, if there is one. -/
def anchor : Rule (Option String) := do
  match ← peek with
  | some (.anchor name) =>
    skip
    return some name
  | _ => return none

/-- The tag ahead, if there is one. -/
def tag (handles : List (String × List UInt8)) : Rule (Option Tag) := do
  match ← peek with
  | some (.tag handle suffix) =>
    skip
    match Tag.resolve? handles handle suffix with
    | some t => return some t
    | none => failure
  | _ => return none

/-- The anchor and the tag ahead, in either order. -/
def properties (handles : List (String × List UInt8)) : Rule (Option String × Option Tag) := do
  match ← anchor with
  | some name => return (some name, ← tag handles)
  | none =>
    match ← tag handles with
    | some t => return (← anchor, some t)
    | none => return (none, none)

/-- The number of an anchor, if there is one. -/
def numberIfAny : Option String → Rule (Option Nat)
  | none => return none
  | some name => return some (← number name)

/-- Where a node stands, which decides on its forms. -/
inductive Place where
  /-- In a flow collection. -/
  | flow
  /-- In a block. -/
  | block
  /-- In a block mapping, where the elements of a sequence need no further indentation. -/
  | mapping
  deriving DecidableEq, Repr

/-- The tag that counts for a scalar; asking for no kind in particular is no tag. -/
def scalarTag (t : Option Tag) : Option Tag := t.filter (· != Tag.nonSpecific)

variable (handles : List (String × List UInt8))

mutual

/-- A node. -/
def node (fuel : Nat) (place : Place) : Rule Node := do
  match fuel with
  | 0 => failure
  | fuel + 1 =>
    match ← peek with
    | some (.reference name) =>
      skip
      match (← get).anchors.lookup name with
      | some mark => return .reference mark
      | none => failure
    | _ =>
      let (name, t) ← properties handles
      match ← peek with
      | some (.scalar style text) =>
        skip
        return .scalar (← numberIfAny name) ⟨style, scalarTag t, text⟩
      | some .flowSequenceStart =>
        skip
        let mark ← numberIfAny name
        return .sequence mark t (← flowItems fuel true)
      | some .flowMappingStart =>
        skip
        let mark ← numberIfAny name
        return .mapping mark t (← flowEntries fuel true)
      | some .blockSequenceStart =>
        if place = .flow then bare name t
        else
          skip
          let mark ← numberIfAny name
          return .sequence mark t (← blockItems fuel)
      | some .blockMappingStart =>
        if place = .flow then bare name t
        else
          skip
          let mark ← numberIfAny name
          return .mapping mark t (← blockEntries fuel)
      | some .blockEntry =>
        if place = .mapping then
          let mark ← numberIfAny name
          return .sequence mark t (← alignedItems fuel)
        else bare name t
      | _ => bare name t

/-- A node that has nothing but an anchor or a tag, and at least one of them. -/
def bare (name : Option String) (t : Option Tag) : Rule Node := do
  if name.isNone && t.isNone then failure
  else return .scalar (← numberIfAny name) ⟨.plain, t, ""⟩

/-- A node, which is missing if one of the tokens that may follow it is ahead. -/
def nodeBefore (fuel : Nat) (place : Place) (followers : List Token) : Rule Node := do
  match fuel with
  | 0 => failure
  | fuel + 1 => if ← isAhead followers then return .missing else node fuel place

/-- The elements of a block sequence and its end. -/
def blockItems (fuel : Nat) : Rule (List Node) := do
  match fuel with
  | 0 => failure
  | fuel + 1 =>
    if ← take .blockEntry then
      let item ← nodeBefore fuel .block [.blockEntry, .blockEnd]
      return item :: (← blockItems fuel)
    else
      expect .blockEnd
      return []

/-- The elements of a sequence that is not indented further than the mapping around it. -/
def alignedItems (fuel : Nat) : Rule (List Node) := do
  match fuel with
  | 0 => failure
  | fuel + 1 =>
    if ← take .blockEntry then
      let item ← nodeBefore fuel .block [.blockEntry, .key, .value, .blockEnd]
      return item :: (← alignedItems fuel)
    else return []

/-- The entries of a block mapping and its end. -/
def blockEntries (fuel : Nat) : Rule (List (Node × Node)) := do
  match fuel with
  | 0 => failure
  | fuel + 1 =>
    if ← take .key then
      let key ← nodeBefore fuel .mapping [.key, .value, .blockEnd]
      let value ←
        if ← take .value then nodeBefore fuel .mapping [.key, .value, .blockEnd]
        else pure .missing
      return (key, value) :: (← blockEntries fuel)
    else
      expect .blockEnd
      return []

/-- The elements of a flow sequence and its end.  A pair among them is a mapping of its own. -/
def flowItems (fuel : Nat) (isFirst : Bool) : Rule (List Node) := do
  match fuel with
  | 0 => failure
  | fuel + 1 =>
    if ← take .flowSequenceEnd then return []
    else
      if !isFirst then expect .flowEntry
      if ← take .flowSequenceEnd then return []
      else if ← take .key then
        let pair ← flowPair fuel
        return .mapping none none [pair] :: (← flowItems fuel false)
      else
        let item ← node fuel .flow
        return item :: (← flowItems fuel false)

/-- The key and value of a pair among the elements of a flow sequence.  The token that shows that
the key is missing is passed over. -/
def flowPair (fuel : Nat) : Rule (Node × Node) := do
  match fuel with
  | 0 => failure
  | fuel + 1 =>
    let key ←
      if ← isAhead [.value, .flowEntry, .flowSequenceEnd] then do
        skip
        pure .missing
      else node fuel .flow
    let value ←
      if ← take .value then nodeBefore fuel .flow [.flowEntry, .flowSequenceEnd]
      else pure .missing
    return (key, value)

/-- The entries of a flow mapping and its end.  A node alone is a key whose value is missing. -/
def flowEntries (fuel : Nat) (isFirst : Bool) : Rule (List (Node × Node)) := do
  match fuel with
  | 0 => failure
  | fuel + 1 =>
    if ← take .flowMappingEnd then return []
    else
      if !isFirst then expect .flowEntry
      if ← take .flowMappingEnd then return []
      else if ← take .key then
        let key ← nodeBefore fuel .flow [.value, .flowEntry, .flowMappingEnd]
        let value ←
          if ← take .value then nodeBefore fuel .flow [.flowEntry, .flowMappingEnd]
          else pure .missing
        return (key, value) :: (← flowEntries fuel false)
      else
        let key ← node fuel .flow
        return (key, .missing) :: (← flowEntries fuel false)

end

end Rule

/-- The directives of a document. -/
structure Directives where
  versioned : Bool := false
  handles : List (String × List UInt8) := []

/-- The directives with the one of a token, unless it contradicts them.  The version has to be 1.1
or 1.2, and is given once, as is what a handle stands for. -/
def Directives.add? (d : Directives) : Token → Option Directives
  | .version major minor =>
    if !d.versioned && major == 1 && (minor == 1 || minor == 2) then
      some { d with versioned := true }
    else none
  | .handle name start =>
    if (d.handles.lookup name).isSome then none
    else some { d with handles := d.handles ++ [(name, start)] }
  | _ => none

namespace Token

/-- Whether a token is a directive. -/
def isDirective : Token → Bool
  | version _ _ | handle _ _ => true
  | _ => false

end Token

namespace Node

/-- The node of a document, after its directives. -/
def ofContent? (handles : List (String × List UInt8)) (tokens : List Token) : Option Node := do
  let (n, o) ← (Rule.node handles (4 * tokens.length + 4) .block).run { tokens }
  if o.tokens.all (· == Token.documentEnd) then some n else none

/-- The node of the only document that tokens hold. -/
def ofTokens? (tokens : List Token) : Option Node := do
  let directives := tokens.takeWhile Token.isDirective
  let d ← directives.foldlM Directives.add? {}
  match tokens.drop directives.length with
  | .documentStart :: content =>
    if content.head?.all (· == .documentEnd) then
      if content.all (· == .documentEnd) then some .missing else none
    else ofContent? d.handles content
  | content => if directives.isEmpty then ofContent? d.handles content else none

/-- The node of the only document of a text. -/
def ofText? (text : String) : Option Node := (Token.ofText? text).bind ofTokens?

end Node

end Workflow.Yaml
