import Workflow.Number
import Workflow.Yaml.Glyph

/-!
# Flow scalars

A scalar that is not a block runs over several lines as one text.  Between its words stand gaps.
A gap within a line is kept.  A gap with line breaks loses its blanks, a single line break becomes a
space, and of several the first is dropped.  A line or paragraph separator is kept where a line
feed would be dropped.  The readers go over the glyphs one at a time and hold on to the gap since
the last word.

A plain scalar stands without quotes.  It ends before a colon with a gap after it, before a comment,
and before a line that begins or ends a document.  Outside flow collections it also ends before a
line that is indented too little, inside them before a bracket, a brace or a comma.

Between single quotes a quote is written twice and nothing else is special.  Between double quotes a
backslash begins an escape: a letter for a character, `x`, `u` or `U` with two, four or eight digits
for its number, or a line break, which then counts for nothing.  A line that begins or ends a
document must not stand inside.
-/

/-! ## Gaps -/

namespace Workflow.Yaml

/-- What stands between two words of a scalar. -/
inductive Gap where
  /-- Blanks within a line. -/
  | within (blanks : List Char)
  /-- Line breaks: the first one, absent when it was escaped, and the others. -/
  | across (first : Option Char) (more : List Char)
  deriving DecidableEq, Repr

namespace Gap

/-- No gap. -/
def empty : Gap := within []

/-- Whether nothing stands between the words. -/
def isEmpty : Gap → Bool
  | within [] => true
  | _ => false

/-- Whether the gap has a line break. -/
def isBroken : Gap → Bool
  | within _ => false
  | across _ _ => true

/-- The gap with one more blank. -/
def withBlank (c : Char) : Gap → Gap
  | within cs => within (cs ++ [c])
  | across first more => across first more

/-- The gap with one more line break. -/
def withBreak (c : Char) : Gap → Gap
  | within _ => across (some c) []
  | across first more => across first (more ++ [c])

/-- The characters that a gap comes to. -/
def chars : Gap → List Char
  | within cs => cs
  | across none more => more
  | across (some '\n') [] => [' ']
  | across (some '\n') more => more
  | across (some c) more => c :: more

end Gap

end Workflow.Yaml

/-! ## Plain scalars -/

namespace Workflow.Yaml.Plain

/-- Whether a character separates the parts of a flow collection. -/
def isFlowMark (c : Char) : Bool := c == ',' || c == '[' || c == ']' || c == '\x7b' || c == '\x7d'

/-- Whether a plain scalar ends before the glyphs ahead, given the gap before them. -/
def ends (inFlow : Bool) (margin : Nat) (gap : Gap) : List Glyph → Bool
  | [] => true
  | g :: gs =>
    (!gap.isEmpty && ((!inFlow && decide (g.column < margin)) || g.char == '#')) ||
      Glyph.atDocumentMark (g :: gs) || (g.char == ':' && Glyph.atGap gs) ||
      (inFlow && isFlowMark g.char)

/-- Whether a colon inside a flow collection is ahead that neither ends a key nor belongs to a
word. -/
def strayColon (inFlow : Bool) : List Glyph → Bool
  | ⟨':', _, _, _⟩ :: g :: _ => inFlow && (isFlowMark g.char || g.char == '?')
  | _ => false

/-- Reads a plain scalar of which the lines after the first stand at `margin` or beyond it: its
characters, the gap after them, and the glyphs after the gap. -/
def read? (inFlow : Bool) (margin : Nat) (gap : Gap) :
    List Glyph → Option (List Char × Gap × List Glyph)
  | [] => some ([], gap, [])
  | g :: gs =>
    if g.isBreak then read? inFlow margin (gap.withBreak g.char) gs
    else if g.isBlank then
      if gap.isBroken && g.char == '\t' && decide (g.column < margin) then none
      else read? inFlow margin (gap.withBlank g.char) gs
    else if ends inFlow margin gap (g :: gs) then some ([], gap, g :: gs)
    else if strayColon inFlow (g :: gs) then none
    else do
      let (cs, after, rest) ← read? inFlow margin .empty gs
      return (gap.chars ++ g.char :: cs, after, rest)

end Workflow.Yaml.Plain

/-! ## Quoted scalars -/

namespace Workflow.Yaml.Quoted

/-- Reads a scalar after its single quote: its characters, and the glyphs after the closing one. -/
def readSingle? (gap : Gap) : List Glyph → Option (List Char × List Glyph)
  | [] => none
  | g :: gs =>
    if g.isBreak then readSingle? (gap.withBreak g.char) gs
    else if g.isBlank then readSingle? (gap.withBlank g.char) gs
    else if Glyph.atDocumentMark (g :: gs) then none
    else if g.char = '\'' then
      match gs with
      | ⟨'\'', _, _, _⟩ :: rest => do
        let (cs, rest) ← readSingle? .empty rest
        return (gap.chars ++ '\'' :: cs, rest)
      | rest => some (gap.chars, rest)
    else do
      let (cs, rest) ← readSingle? .empty gs
      return (gap.chars ++ g.char :: cs, rest)

/-- The character of an escape by one letter. -/
def escape? : Char → Option Char
  | '0' => some '\x00'
  | 'a' => some '\x07'
  | 'b' => some '\x08'
  | 't' => some '\t'
  | '\t' => some '\t'
  | 'n' => some '\n'
  | 'v' => some '\x0b'
  | 'f' => some '\x0c'
  | 'r' => some '\r'
  | 'e' => some '\x1b'
  | ' ' => some ' '
  | '"' => some '"'
  | '/' => some '/'
  | '\\' => some '\\'
  | 'N' => some '\u0085'
  | '_' => some '\u00a0'
  | 'L' => some '\u2028'
  | 'P' => some '\u2029'
  | _ => none

/-- How many digits follow a letter that announces the number of a character. -/
def digits? : Char → Option Nat
  | 'x' => some 2
  | 'u' => some 4
  | 'U' => some 8
  | _ => none

/-- The character of a number. -/
def ofCode? (n : Nat) : Option Char := if n.isValidChar then some (Char.ofNat n) else none

/-- Where a reader stands between double quotes. -/
inductive Place where
  /-- After the gap that follows the last word. -/
  | word (gap : Gap)
  /-- After a backslash. -/
  | escape
  /-- Before the last digits of a number, `left` and one of them, given the number so far. -/
  | code (left value : Nat)
  deriving DecidableEq, Repr

/-- Reads a scalar after its double quote: its characters, and the glyphs after the closing one. -/
def readDouble? : Place → List Glyph → Option (List Char × List Glyph)
  | _, [] => none
  | .word gap, g :: gs =>
    if g.isBreak then readDouble? (.word (gap.withBreak g.char)) gs
    else if g.isBlank then readDouble? (.word (gap.withBlank g.char)) gs
    else if Glyph.atDocumentMark (g :: gs) then none
    else if g.char = '"' then some (gap.chars, gs)
    else if g.char = '\\' then do
      let (cs, rest) ← readDouble? .escape gs
      return (gap.chars ++ cs, rest)
    else do
      let (cs, rest) ← readDouble? (.word .empty) gs
      return (gap.chars ++ g.char :: cs, rest)
  | .escape, g :: gs =>
    if g.isBreak then readDouble? (.word (.across none [])) gs
    else
      match digits? g.char with
      | some n => readDouble? (.code (n - 1) 0) gs
      | none => do
        let c ← escape? g.char
        let (cs, rest) ← readDouble? (.word .empty) gs
        return (c :: cs, rest)
  | .code left value, g :: gs => do
    let value := value * 16 + (← Text.hexValue? g.char)
    match left with
    | left + 1 => readDouble? (.code left value) gs
    | 0 =>
      let c ← ofCode? value
      let (cs, rest) ← readDouble? (.word .empty) gs
      return (c :: cs, rest)

end Workflow.Yaml.Quoted
