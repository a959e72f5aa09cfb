/-!
# Glyphs

The characters of a YAML text with the places where they stand.  The layout of a YAML text has
meaning: the column of a character says what it belongs to, and a key has to stand on one line with
the colon after it.

The line breaks are carriage return, line feed, the two of them together, next line, line separator
and paragraph separator.  The first four are one glyph each and read as a line feed; the separators
keep their character.
-/

namespace Workflow.Yaml

/-- A character and its place. -/
structure Glyph where
  char : Char
  /-- How many characters of the text stand before it. -/
  index : Nat
  /-- How many lines stand before it. -/
  line : Nat
  /-- How many characters of its line stand before it. -/
  column : Nat
  deriving DecidableEq, Repr

/-- Whether a character ends a line.  Carriage return and next line are read as a line feed. -/
def isBreak (c : Char) : Bool := c == '\n' || c == '\u2028' || c == '\u2029'

/-- Whether a character is a space or a tab. -/
def isBlank (c : Char) : Bool := c == ' ' || c == '\t'

/-- Whether a character is a space, a tab or a line break. -/
def isGap (c : Char) : Bool := isBlank c || isBreak c

/-- Whether a character may stand in a name: a Latin letter, a digit, a hyphen or a low line. -/
def isWord (c : Char) : Bool := c.isAlphanum || c == '-' || c == '_'

/-- Whether a character may stand in a YAML text. -/
def isPermitted (c : Char) : Bool :=
  let n := c.toNat
  n == 0x09 || n == 0x0a || n == 0x0d || (0x20 ≤ n && n ≤ 0x7e) || n == 0x85 ||
    (0xa0 ≤ n && n ≤ 0xd7ff) || (0xe000 ≤ n && n ≤ 0xfffd) || 0x10000 ≤ n

namespace Glyph

/-- The glyph is a space or a tab. -/
def isBlank (g : Glyph) : Bool := Yaml.isBlank g.char

/-- The glyph ends a line. -/
def isBreak (g : Glyph) : Bool := Yaml.isBreak g.char

/-- The glyphs of characters of which the first has the given place. -/
def place? (index line column : Nat) : List Char → Option (List Glyph)
  | [] => some []
  | '\r' :: '\n' :: cs =>
    (place? (index + 2) (line + 1) 0 cs).map (⟨'\n', index, line, column⟩ :: ·)
  | c :: cs =>
    let c' := if c == '\r' || c == '\u0085' then '\n' else c
    if !isPermitted c then none
    else if Yaml.isBreak c' then
      (place? (index + 1) (line + 1) 0 cs).map (⟨c', index, line, column⟩ :: ·)
    else (place? (index + 1) line (column + 1) cs).map (⟨c', index, line, column⟩ :: ·)

/-- The glyphs of a text, unless a character may not stand in it. -/
def ofText? (text : String) : Option (List Glyph) := place? 0 0 0 text.toList

/-- Whether nothing, or a space, a tab or a line break is ahead. -/
def atGap : List Glyph → Bool
  | [] => true
  | g :: _ => isGap g.char

/-- Whether three of a character are ahead at the beginning of a line, and a gap after them. -/
def atTriple (c : Char) : List Glyph → Bool
  | x :: y :: z :: gs => x.column == 0 && x.char == c && y.char == c && z.char == c && atGap gs
  | _ => false

/-- Whether a line is ahead that begins or ends a document. -/
def atDocumentMark (gs : List Glyph) : Bool := atTriple '-' gs || atTriple '.' gs

/-- The name ahead and the glyphs after it. -/
def readWord (gs : List Glyph) : List Char × List Glyph :=
  ((gs.takeWhile fun g => isWord g.char).map Glyph.char, gs.dropWhile fun g => isWord g.char)

/-- The glyphs after spaces and tabs. -/
def skipBlanks (gs : List Glyph) : List Glyph := gs.dropWhile Glyph.isBlank

/-- The glyphs after the line, of which only blanks and a comment may be left. -/
def endLine? (gs : List Glyph) : Option (List Glyph) :=
  let gs := skipBlanks gs
  let gs := match gs with
    | ⟨'#', _, _, _⟩ :: _ => gs.dropWhile fun (g : Glyph) => !g.isBreak
    | gs => gs
  match gs with
  | [] => some []
  | g :: rest => if g.isBreak then some rest else none

end Glyph

end Workflow.Yaml
