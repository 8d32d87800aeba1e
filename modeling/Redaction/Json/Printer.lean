import Redaction.Json.Basic

/-!
# Writing JSON texts

One printer with two layouts: `compact` writes no blanks, `pretty` puts every item and entry on a
line of its own, indented by two spaces per level. Empty arrays and objects are `[]` and an empty
pair of braces in both.

Escapes are those of quotation mark, backslash, backspace, form feed, line feed, carriage return and
tab, and `\u00xx` with lower-case digits for the other characters below U+0020.
-/

namespace Redaction.Json

/-- The blanks of a text: what stands before an item at a depth, and behind a key. -/
structure Layout where
  line : Nat → List Char
  afterColon : List Char

/-- The layout without blanks. -/
def Layout.compact : Layout := ⟨fun _ => [], []⟩

/-- The layout with one item per line and two spaces per level. -/
def Layout.pretty : Layout := ⟨fun depth => '\n' :: List.replicate (2 * depth) ' ', [' ']⟩

/-- The hexadecimal digit of a number below 16. -/
def hexDigit (n : Nat) : Char := if n < 10 then Char.ofNat (48 + n) else Char.ofNat (87 + n)

/-- A character inside a string. -/
def escapeChar (c : Char) : List Char :=
  if c = '"' then ['\\', '"']
  else if c = '\\' then ['\\', '\\']
  else if c = '\x08' then ['\\', 'b']
  else if c = '\x0c' then ['\\', 'f']
  else if c = '\n' then ['\\', 'n']
  else if c = '\r' then ['\\', 'r']
  else if c = '\t' then ['\\', 't']
  else if c.toNat < 0x20 then
    ['\\', 'u', '0', '0', hexDigit (c.toNat / 16), hexDigit (c.toNat % 16)]
  else [c]

/-- A text between quotation marks. -/
def quote (s : String) : List Char := '"' :: s.toList.flatMap escapeChar ++ ['"']

/-- A number that is not written as an integer: its decimal with a point in it. -/
def floatText (v : Binary .double) : List Char :=
  if v.isFinite then
    let cs := v.decimal.toList
    if cs.contains '.' then cs else cs ++ ['.', '0']
  else ['n', 'u', 'l', 'l']

mutual

/-- The text of a value that begins at a depth. -/
def print (layout : Layout) (depth : Nat) : Json → List Char
  | null => ['n', 'u', 'l', 'l']
  | bool true => ['t', 'r', 'u', 'e']
  | bool false => ['f', 'a', 'l', 's', 'e']
  | int v => (toString v).toList
  | float v => floatText v
  | str s => quote s
  | arr [] => ['[', ']']
  | arr (v :: vs) =>
    '[' :: layout.line (depth + 1) ++ print layout (depth + 1) v ++ printItems layout (depth + 1) vs
      ++ layout.line depth ++ [']']
  | obj [] => ['\x7b', '\x7d']
  | obj ((k, v) :: es) =>
    '\x7b' :: layout.line (depth + 1) ++ quote k ++ ':' :: layout.afterColon
      ++ print layout (depth + 1) v ++ printEntries layout (depth + 1) es
      ++ layout.line depth ++ ['\x7d']

/-- The text of the items behind the first one. -/
def printItems (layout : Layout) (depth : Nat) : List Json → List Char
  | [] => []
  | v :: vs => ',' :: layout.line depth ++ print layout depth v ++ printItems layout depth vs

/-- The text of the entries behind the first one. -/
def printEntries (layout : Layout) (depth : Nat) : List (String × Json) → List Char
  | [] => []
  | (k, v) :: es =>
    ',' :: layout.line depth ++ quote k ++ ':' :: layout.afterColon ++ print layout depth v
      ++ printEntries layout depth es

end

/-- The text of a value on one line, without blanks. -/
def compact (v : Json) : String := String.ofList (print .compact 0 v)

/-- The text of a value with one item per line. -/
def pretty (v : Json) : String := String.ofList (print .pretty 0 v)

example : compact (arr [int 1, float (Binary.ofInt 1), str "\x01\n", arr []]) =
    "[1,1.0,\"\\u0001\\n\",[]]" := by decide +kernel

example : pretty (arr [int 1, arr [null]]) = "[\n  1,\n  [\n    null\n  ]\n]" := by
  decide +kernel

end Redaction.Json
