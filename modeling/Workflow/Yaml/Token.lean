import Workflow.Yaml.Scalar
import Workflow.Yaml.Scalar.Block
import Workflow.Yaml.Scalar.Flow

/-!
# Tokens

What a YAML text is made of, once the layout has been turned into marks: the beginning and end of a
block collection and the key of a simple pair have tokens of their own although no character stands
for them.

Tokens are found from left to right.  The state knows the columns of the block collections that are
open, the flow collections that are open, and for each of these the place of the last node that may
turn out to be a key.  When a colon shows that it is one, the token for the key, and where a block
mapping begins with it the token for that as well, are put in at that place.

A node may be a key only if the colon stands on its line and within 1024 characters of its
beginning. A node that stands in the column of the innermost block collection has to be a key.
-/

namespace Workflow.Yaml

/-- A token of a YAML text. -/
inductive Token where
  /-- The version that a text says it is written for. -/
  | version (major minor : Nat)
  /-- What a handle stands for in the tags of the document that follows. -/
  | handle (name : String) (start : List UInt8)
  | documentStart
  | documentEnd
  | blockSequenceStart
  | blockMappingStart
  /-- The end of a block sequence or a block mapping. -/
  | blockEnd
  | flowSequenceStart
  | flowSequenceEnd
  | flowMappingStart
  | flowMappingEnd
  /-- The hyphen in front of an element. -/
  | blockEntry
  /-- The comma between the parts of a flow collection. -/
  | flowEntry
  | key
  | value
  | reference (name : String)
  | anchor (name : String)
  | tag (handle : String) (suffix : List UInt8)
  | scalar (style : Style) (text : String)
  deriving DecidableEq, Repr

/-! ## Finding the tokens of a text -/

/-- A node that may turn out to be a key. -/
structure Candidate where
  /-- The node has to be a key. -/
  required : Bool
  /-- How many tokens stand before it. -/
  position : Nat
  /-- Its first character. -/
  start : Glyph
  deriving DecidableEq, Repr

/-- How far a text has been turned into tokens. -/
structure Scan where
  /-- The tokens so far, the last one first. -/
  tokens : List Token := []
  /-- The columns of the open block collections, the innermost one first. -/
  margins : List Nat := []
  /-- The candidate of the innermost flow collection, or of the block around all of them. -/
  candidate : Option Candidate := none
  /-- The candidates outside the open flow collections, the innermost one first. -/
  outer : List (Option Candidate) := []
  /-- A key may begin here. -/
  keyAllowed : Bool := true
  deriving DecidableEq, Repr

namespace Scan

/-- Whether a flow collection is open. -/
def inFlow (s : Scan) : Bool := !s.outer.isEmpty

/-- Adds a token at the end. -/
def add (s : Scan) (t : Token) : Scan := { s with tokens := t :: s.tokens }

/-- Puts a token in after the first `position` ones. -/
def insert (s : Scan) (position : Nat) (t : Token) : Scan :=
  let after := s.tokens.length - position
  { s with tokens := s.tokens.take after ++ t :: s.tokens.drop after }

/-- States whether a key may begin next. -/
def allowKey (s : Scan) (allowed : Bool) : Scan := { s with keyAllowed := allowed }

/-- Gives up the candidate, unless it has to be a key. -/
def dropCandidate? (s : Scan) : Option Scan :=
  if s.candidate.any Candidate.required then none else some { s with candidate := none }

/-- Makes the node that begins here the candidate, if a key may begin here. -/
def setCandidate? (s : Scan) (g : Glyph) : Option Scan := do
  if s.keyAllowed then
    let s ← s.dropCandidate?
    let required := !s.inFlow && s.margins.head? == some g.column
    return { s with candidate := some ⟨required, s.tokens.length, g⟩ }
  else return s

/-- Whether a candidate is out of reach of a colon that stands here. -/
def isStale (g : Glyph) (c : Candidate) : Bool :=
  c.start.line < g.line || c.start.index + 1024 < g.index

/-- A candidate that is still in reach; nothing at all if it had to be a key and is not. -/
def refresh? (g : Glyph) : Option Candidate → Option (Option Candidate)
  | none => some none
  | some c => if isStale g c then if c.required then none else some none else some (some c)

/-- Gives up the candidates that are out of reach. -/
def refreshAll? (s : Scan) (g : Glyph) : Option Scan := do
  return { s with candidate := ← refresh? g s.candidate, outer := ← s.outer.mapM (refresh? g) }

/-- Ends the open block collections whose columns satisfy `p`, from the innermost one on. -/
def close (p : Nat → Bool) (s : Scan) : Scan :=
  if s.inFlow then s
  else
    let closed := s.margins.takeWhile p
    { s with
      tokens := List.replicate closed.length .blockEnd ++ s.tokens
      margins := s.margins.dropWhile p }

/-- Begins a block collection at a column that is further right than all that are open, with its
token put in after the first `position` ones. -/
def openAt (s : Scan) (position column : Nat) (t : Token) : Scan :=
  if s.inFlow || s.margins.head?.any (column ≤ ·) then s
  else { s.insert position t with margins := column :: s.margins }

/-- Begins a block collection here. -/
def openHere (s : Scan) (column : Nat) (t : Token) : Scan := s.openAt s.tokens.length column t

/-- The glyphs after blanks, comments and line breaks, and whether a key may begin there.  Outside
flow collections, a line break lets a key begin, and a tab must not stand where one may begin. -/
def skipGap (inFlow keyAllowed comment : Bool) : List Glyph → Bool × List Glyph
  | [] => (keyAllowed, [])
  | g :: gs =>
    if g.isBreak then skipGap inFlow (keyAllowed || !inFlow) false gs
    else if comment || g.char == '#' then skipGap inFlow keyAllowed true gs
    else if g.char == ' ' || (g.char == '\t' && (inFlow || !keyAllowed)) ||
        (g.char == '\ufeff' && g.column == 0) then
      skipGap inFlow keyAllowed false gs
    else (keyAllowed, g :: gs)

/-- Ends every block collection before something that stands outside all of them. -/
def leave? (s : Scan) : Option Scan := do
  let s ← (s.close fun _ => true).dropCandidate?
  return s.allowKey false

/-! ## Directives -/

/-- Reads a number of at most nine digits. -/
def readVersionNumber? (gs : List Glyph) : Option (Nat × List Glyph) :=
  let ds := (gs.takeWhile fun (g : Glyph) => g.char.isDigit).map Glyph.char
  if ds.length ≤ 9 then (Numeric.natural? 10 ds).map (·, gs.drop ds.length) else none

/-- Reads a version. -/
def readVersion? (gs : List Glyph) : Option (Token × List Glyph) := do
  let (major, gs) ← readVersionNumber? (Glyph.skipBlanks gs)
  match gs with
  | ⟨'.', _, _, _⟩ :: gs =>
    let (minor, gs) ← readVersionNumber? gs
    return (.version major minor, gs)
  | _ => none

/-- Reads a handle between exclamation marks; the first mark alone is one, too. -/
def readHandle? : List Glyph → Option (String × List Glyph)
  | ⟨'!', _, _, _⟩ :: gs =>
    let (word, rest) := Glyph.readWord gs
    match rest with
    | ⟨'!', _, _, _⟩ :: rest => some (String.ofList ('!' :: word ++ ['!']), rest)
    | rest => if word.isEmpty then some ("!", rest) else none
  | _ => none

/-- Reads a handle and what it stands for. -/
def readHandleStart? (gs : List Glyph) : Option (Token × List Glyph) := do
  let (name, gs) ← readHandle? (Glyph.skipBlanks gs)
  if gs.head?.any Glyph.isBlank then
    let (start, gs) ← Tag.readSome? true (Glyph.skipBlanks gs)
    if Glyph.atGap gs then some (.handle name start, gs) else none
  else none

/-- Reads a directive after its percent sign, with the rest of its line. -/
def readDirective? (gs : List Glyph) : Option (Token × List Glyph) := do
  let (name, gs) := Glyph.readWord gs
  if !Glyph.atGap gs then none
  else
    let (t, gs) ←
      match String.ofList name with
      | "YAML" => readVersion? gs
      | "TAG" => readHandleStart? gs
      | _ => none
    return (t, ← Glyph.endLine? gs)

/-! ## Nodes -/

/-- Reads the name of an anchor. -/
def readAnchor? (gs : List Glyph) : Option (String × List Glyph) :=
  let (name, rest) := Glyph.readWord gs
  let ended := Glyph.atGap rest ||
    rest.head?.any fun (g : Glyph) => "?:,]%@".toList.contains g.char || g.char == '\x7d' ||
      g.char == '\x60'
  if name.isEmpty || !ended then none else some (String.ofList name, rest)

/-- Reads a node of one token: it may be a key, and no other key may begin right after it. -/
def node? (s : Scan) (g : Glyph) (read : Option (Token × List Glyph)) :
    Option (Scan × List Glyph) := do
  let s ← s.setCandidate? g
  let (t, rest) ← read
  return ((s.allowKey false).add t, rest)

/-- Reads a plain scalar.  A key may begin after it if it goes on to another line. -/
def plain? (s : Scan) (g : Glyph) (gs : List Glyph) : Option (Scan × List Glyph) := do
  let s ← s.setCandidate? g
  let (cs, gap, rest) ← Plain.read? s.inFlow (s.margins.head?.elim 0 (· + 1)) .empty (g :: gs)
  return ((s.allowKey gap.isBroken).add (.scalar .plain (String.ofList cs)), rest)

/-- Reads a block scalar after its indicator. -/
def block? (s : Scan) (style : Style) (gs : List Glyph) : Option (Scan × List Glyph) := do
  let s ← s.dropCandidate?
  let (cs, rest) ← Block.read? (style = .folded) s.margins.head? gs
  return ((s.allowKey true).add (.scalar style (String.ofList cs)), rest)

/-- Begins a flow collection. -/
def flowStart? (s : Scan) (g : Glyph) (t : Token) : Option Scan := do
  let s ← s.setCandidate? g
  return ({ s with candidate := none, outer := s.candidate :: s.outer }.allowKey true).add t

/-- Ends a flow collection. -/
def flowEnd? (s : Scan) (t : Token) : Option Scan := do
  let s ← s.dropCandidate?
  let s := match s.outer with
    | [] => s
    | c :: outer => { s with candidate := c, outer }
  return (s.allowKey false).add t

/-- Goes on to the next part of a flow collection. -/
def flowEntry? (s : Scan) : Option Scan := do
  let s ← s.dropCandidate?
  return (s.allowKey true).add .flowEntry

/-- Begins an element of a block sequence. -/
def blockEntry? (s : Scan) (column : Nat) : Option Scan := do
  if !s.inFlow && !s.keyAllowed then none
  else
    let s ← (s.openHere column .blockSequenceStart).dropCandidate?
    return (s.allowKey true).add .blockEntry

/-- Begins a key that has an indicator. -/
def key? (s : Scan) (column : Nat) : Option Scan := do
  if !s.inFlow && !s.keyAllowed then none
  else
    let s ← (s.openHere column .blockMappingStart).dropCandidate?
    return (s.allowKey !s.inFlow).add .key

/-- Begins a value: of the candidate, or of a key that has an indicator. -/
def value? (s : Scan) (column : Nat) : Option Scan :=
  match s.candidate with
  | some c =>
    let s := s.insert c.position .key
    let s := s.openAt c.position c.start.column .blockMappingStart
    some (({ s with candidate := none }.allowKey false).add .value)
  | none =>
    if !s.inFlow && !s.keyAllowed then none
    else
      let s := s.openHere column .blockMappingStart
      some ((s.allowKey !s.inFlow).add .value)

/-- Whether a character cannot begin a plain scalar. -/
def isIndicator (c : Char) : Bool :=
  isGap c || "-?:,[]#&*!|>'\"%@".toList.contains c || c == '\x7b' || c == '\x7d' || c == '\x60'

/-- Reads the token that begins here, which is not in a gap. -/
def token? (s : Scan) (g : Glyph) (gs : List Glyph) : Option (Scan × List Glyph) :=
  let apart := Glyph.atGap gs
  if g.column = 0 && g.char = '%' then do
    let s ← s.leave?
    let (t, rest) ← readDirective? gs
    return (s.add t, rest)
  else if Glyph.atTriple '-' (g :: gs) then do return ((← s.leave?).add .documentStart, gs.drop 2)
  else if Glyph.atTriple '.' (g :: gs) then do return ((← s.leave?).add .documentEnd, gs.drop 2)
  else
    match g.char with
    | '[' => do return (← s.flowStart? g .flowSequenceStart, gs)
    | '\x7b' => do return (← s.flowStart? g .flowMappingStart, gs)
    | ']' => do return (← s.flowEnd? .flowSequenceEnd, gs)
    | '\x7d' => do return (← s.flowEnd? .flowMappingEnd, gs)
    | ',' => do return (← s.flowEntry?, gs)
    | '*' => s.node? g ((readAnchor? gs).map fun (name, rest) => (.reference name, rest))
    | '&' => s.node? g ((readAnchor? gs).map fun (name, rest) => (.anchor name, rest))
    | '!' => s.node? g ((Tag.read? s.inFlow gs).map fun ((handle, suffix), rest) =>
        (.tag handle suffix, rest))
    | '\'' => s.node? g ((Quoted.readSingle? .empty gs).map fun (cs, rest) =>
        (.scalar .quoted (String.ofList cs), rest))
    | '"' => s.node? g ((Quoted.readDouble? (.word .empty) gs).map fun (cs, rest) =>
        (.scalar .quoted (String.ofList cs), rest))
    | '-' =>
      if apart then do return (← s.blockEntry? g.column, gs) else s.plain? g gs
    | '?' =>
      if s.inFlow || apart then do return (← s.key? g.column, gs) else s.plain? g gs
    | ':' =>
      if s.inFlow || apart then do return (← s.value? g.column, gs) else s.plain? g gs
    | '|' => if s.inFlow then none else s.block? .literal gs
    | '>' => if s.inFlow then none else s.block? .folded gs
    | c => if isIndicator c then none else s.plain? g gs

/-- Reads tokens to the end of the text.  Each of them takes a glyph, so the number of glyphs is
fuel enough. -/
def run? : Nat → Scan → List Glyph → Option Scan
  | 0, _, _ => none
  | fuel + 1, s, gs => do
    let (keyAllowed, gs) := skipGap s.inFlow s.keyAllowed false gs
    let s := s.allowKey keyAllowed
    match gs with
    | [] => s.leave?
    | g :: rest =>
      let s := (← s.refreshAll? g).close (g.column < ·)
      let (s, rest) ← s.token? g rest
      run? fuel s rest

end Scan

/-- The tokens of a text. -/
def Token.ofText? (text : String) : Option (List Token) := do
  let gs ← Glyph.ofText? text
  let s ← Scan.run? (gs.length + 1) {} gs
  return s.tokens.reverse

end Workflow.Yaml
