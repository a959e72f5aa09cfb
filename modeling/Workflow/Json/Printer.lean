import Workflow.Number

/-!
# Writing JSON

A value is written on one line without blanks, or over several lines with two blanks for each level.
In a text, the quote, the backslash and control characters are escaped, and nothing else.
-/

namespace Workflow.Json

/-- A character as it stands in a text. -/
def escapedChar (c : Char) : List Char :=
  if c = '"' then ['\\', '"']
  else if c = '\\' then ['\\', '\\']
  else if c = '\n' then ['\\', 'n']
  else if c = '\r' then ['\\', 'r']
  else if c = '\t' then ['\\', 't']
  else if c.toNat = 8 then ['\\', 'b']
  else if c.toNat = 12 then ['\\', 'f']
  else if c.toNat < 32 then
    ['\\', 'u', '0', '0', Text.hexDigit (c.toNat / 16), Text.hexDigit (c.toNat % 16)]
  else [c]

/-- A text between quotes. -/
def textChars (s : String) : List Char := '"' :: s.toList.flatMap escapedChar ++ ['"']

/-- The word of a truth value. -/
def boolChars : Bool → List Char
  | true => ['t', 'r', 'u', 'e']
  | false => ['f', 'a', 'l', 's', 'e']

mutual

/-- A value on one line. -/
def chars : Json → List Char
  | null => ['n', 'u', 'l', 'l']
  | bool b => boolChars b
  | number n => n.chars
  | text s => textChars s
  | list items => '[' :: listChars items
  | object fields => '\x7b' :: objectChars fields

/-- The elements of a list and its end. -/
def listChars : List Json → List Char
  | [] => [']']
  | [j] => chars j ++ [']']
  | j :: js => chars j ++ ',' :: listChars js

/-- The fields of an object and its end. -/
def objectChars : List (String × Json) → List Char
  | [] => ['\x7d']
  | [(k, j)] => textChars k ++ ':' :: chars j ++ ['\x7d']
  | (k, j) :: rest => textChars k ++ ':' :: chars j ++ ',' :: objectChars rest

end

/-- A value on one line, as a string. -/
def render (j : Json) : String := String.ofList j.chars

/-- The start of a line at a level. -/
def lineStart (level : Nat) : List Char := '\n' :: List.replicate (2 * level) ' '

mutual

/-- A value over several lines, of which the first has begun at a level. -/
def prettyChars (level : Nat) : Json → List Char
  | list [] => ['[', ']']
  | object [] => ['\x7b', '\x7d']
  | list items => '[' :: prettyList (level + 1) items
  | object fields => '\x7b' :: prettyObject (level + 1) fields
  | null => ['n', 'u', 'l', 'l']
  | bool b => boolChars b
  | number n => n.chars
  | text s => textChars s

/-- The elements of a list, each on a line of its own, and its end. -/
def prettyList (level : Nat) : List Json → List Char
  | [] => [']']
  | [j] => lineStart level ++ prettyChars level j ++ lineStart (level - 1) ++ [']']
  | j :: js => lineStart level ++ prettyChars level j ++ ',' :: prettyList level js

/-- The fields of an object, each on a line of its own, and its end. -/
def prettyObject (level : Nat) : List (String × Json) → List Char
  | [] => ['\x7d']
  | [(k, j)] =>
    lineStart level ++ textChars k ++ ':' :: ' ' :: prettyChars level j ++
      lineStart (level - 1) ++ ['\x7d']
  | (k, j) :: rest =>
    lineStart level ++ textChars k ++ ':' :: ' ' :: prettyChars level j ++
      ',' :: prettyObject level rest

end

/-- A value over several lines, as a string. -/
def renderPretty (j : Json) : String := String.ofList (j.prettyChars 0)

end Workflow.Json
