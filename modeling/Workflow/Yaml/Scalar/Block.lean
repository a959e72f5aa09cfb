import Workflow.Yaml.Glyph

/-!
# Block scalars

A block scalar begins with an indicator and goes on with the lines that are indented further than
what it belongs to.  The indentation is given after the indicator, or is that of the first line with
text.  A literal block keeps its line breaks.  A folded one joins two lines that do not begin with a
blank by a space, and drops the first of several line breaks between them.  Of the line breaks at
the end, one is kept unless the indicator asks to strip or to keep them all.
-/

namespace Workflow.Yaml.Block

/-- What becomes of the line breaks at the end. -/
inductive Chomping where
  | strip
  | clip
  | keep
  deriving DecidableEq, Repr

/-- What an indicator asks for. -/
structure Header where
  chomping : Chomping := .clip
  /-- How much further than its surroundings the block is indented, if that is given. -/
  increment : Option Nat := none
  deriving DecidableEq, Repr

/-- The chomping that a character asks for. -/
def chomping? : Char → Option Chomping
  | '+' => some .keep
  | '-' => some .strip
  | _ => none

/-- Reads a digit that gives the indentation, if there is one; it must not be zero. -/
def readIncrement? : List Glyph → Option (Option Nat × List Glyph)
  | [] => some (none, [])
  | g :: gs =>
    if g.char = '0' then none
    else if g.char.isDigit then some (some (g.char.toNat - 48), gs)
    else some (none, g :: gs)

/-- Reads the chomping, if it is given. -/
def readChomping (gs : List Glyph) : Option Chomping × List Glyph :=
  match gs.head?.bind fun g => chomping? g.char with
  | some c => (some c, gs.tail)
  | none => (none, gs)

/-- Reads what follows the indicator up to the end of its line.  Chomping and indentation stand in
either order. -/
def readHeader? (gs : List Glyph) : Option (Header × List Glyph) := do
  let (first, gs) := readChomping gs
  let (increment, gs) ← readIncrement? gs
  let (second, gs) := if first.isNone && increment.isSome then readChomping gs else (none, gs)
  return (⟨(first <|> second).getD .clip, increment⟩, ← Glyph.endLine? gs)

/-- The column of the first line with text, or of a longer line without one before it; a tab must
not stand before the text. -/
def detect? (widest : Nat) : List Glyph → Option Nat
  | [] => some widest
  | g :: gs =>
    if g.char = ' ' then detect? widest gs
    else if g.char = '\t' then none
    else if g.isBreak then detect? (max widest g.column) gs
    else some (max widest g.column)

/-- A line of a block without its indentation, and the line break that ends it. -/
structure Line where
  text : List Char
  break? : Option Char
  deriving DecidableEq, Repr

/-- Reads the lines of a block of which the indentation is known; `read` holds the characters of the
line so far, the last one first. -/
def readLines? (indentation : Nat) (read : List Char) : List Glyph → Option (List Line × List Glyph)
  | [] => some (if read.isEmpty then [] else [⟨read.reverse, none⟩], [])
  | g :: gs =>
    if g.isBreak then do
      let (ls, rest) ← readLines? indentation [] gs
      return (⟨read.reverse, some g.char⟩ :: ls, rest)
    else if !read.isEmpty then readLines? indentation (g.char :: read) gs
    else if g.column < indentation then
      if g.char = ' ' then readLines? indentation [] gs
      else if g.char = '\t' then none
      else some ([], g :: gs)
    else readLines? indentation [g.char] gs

/-- The text of a block so far. -/
structure Body where
  chars : List Char := []
  /-- The line break of the last line with text. -/
  last : List Char := []
  /-- The line breaks after it. -/
  trailing : List Char := []
  /-- Whether the last line with text begins with a blank. -/
  blank : Bool := false
  deriving DecidableEq, Repr

/-- Whether a line begins with a blank. -/
def Line.isBlank (l : Line) : Bool := l.text.head?.any Yaml.isBlank

/-- What joins a line to the text before it. -/
def Body.joint (folded : Bool) (b : Body) (l : Line) : List Char :=
  if folded && b.last == ['\n'] && !b.blank && !l.isBlank then
    if b.trailing.isEmpty then [' '] else b.trailing
  else b.last ++ b.trailing

/-- The text with one more line. -/
def Body.add (folded : Bool) (b : Body) (l : Line) : Body :=
  if l.text.isEmpty then { b with trailing := b.trailing ++ l.break?.toList }
  else ⟨b.chars ++ b.joint folded l ++ l.text, l.break?.toList, [], l.isBlank⟩

/-- The text with what is kept of the line breaks at its end. -/
def Body.finish (chomping : Chomping) (b : Body) : List Char :=
  match chomping with
  | .strip => b.chars
  | .clip => b.chars ++ b.last
  | .keep => b.chars ++ b.last ++ b.trailing

/-- Reads a block scalar after its indicator, which belongs to something with the given indentation:
its characters and the glyphs after it. -/
def read? (folded : Bool) (margin : Option Nat) (gs : List Glyph) :
    Option (List Char × List Glyph) := do
  let (header, gs) ← readHeader? gs
  let indentation ← match header.increment with
    | some n => some (margin.getD 0 + n)
    | none => (detect? 0 gs).map fun n => max n (max 1 (margin.elim 0 (· + 1)))
  let (lines, rest) ← readLines? indentation [] gs
  return ((lines.foldl (Body.add folded) {}).finish header.chomping, rest)

end Workflow.Yaml.Block
