import Redaction.Json.Token

/-!
# Reading JSON texts

The second half of reading: tokens build a value on a stack of open arrays and objects. Both halves
take one step per character, so `parse?` is a fold over the text.

* Arrays and objects nest at most `maxDepth` deep.
* Of several entries under one key, the last stays.
-/

namespace Redaction.Json

/-- An array or object that is still open, with its parts so far in reverse. -/
inductive Frame where
  | array (items : List Json)
  | object (entries : List (String × Json))
  /-- An object in which the value under `key` is to come. -/
  | entry (entries : List (String × Json)) (key : String)

/-- What the next token may be. -/
inductive Need where
  | value
  | valueOrClose
  | key
  | keyOrClose
  | colon
  | separator
  | nothing (result : Json)

/-- The open arrays and objects, innermost first, and what may come next. -/
structure Builder where
  stack : List Frame
  need : Need

/-- The greatest number of arrays and objects that may be open at once. -/
def maxDepth : Nat := 127

/-- The entries, in reverse, with `value` under `key` and nothing else under it. -/
def putEntry (key : String) (value : Json) (entries : List (String × Json)) :
    List (String × Json) :=
  (key, value) :: entries.filter (fun e => e.1 != key)

namespace Builder

/-- Nothing read yet. -/
def start : Builder := ⟨[], .value⟩

/-- Puts a complete value where it belongs. -/
def place? (v : Json) : List Frame → Option Builder
  | [] => some ⟨[], .nothing v⟩
  | .array items :: rest => some ⟨.array (v :: items) :: rest, .separator⟩
  | .entry entries key :: rest => some ⟨.object (putEntry key v entries) :: rest, .separator⟩
  | .object _ :: _ => none

/-- Opens an array or an object. -/
def open? (frame : Frame) (need : Need) (stack : List Frame) : Option Builder :=
  if stack.length < maxDepth then some ⟨frame :: stack, need⟩ else none

/-- Takes the next token. -/
def feed? : Builder → Token → Option Builder
  | ⟨stack, .value⟩, .scalar v | ⟨stack, .valueOrClose⟩, .scalar v => place? v stack
  | ⟨stack, .value⟩, .openArray | ⟨stack, .valueOrClose⟩, .openArray =>
    open? (.array []) .valueOrClose stack
  | ⟨stack, .value⟩, .openObject | ⟨stack, .valueOrClose⟩, .openObject =>
    open? (.object []) .keyOrClose stack
  | ⟨.object entries :: rest, .key⟩, .scalar (.str k)
  | ⟨.object entries :: rest, .keyOrClose⟩, .scalar (.str k) =>
    some ⟨.entry entries k :: rest, .colon⟩
  | ⟨stack, .colon⟩, .colon => some ⟨stack, .value⟩
  | ⟨.array items :: rest, .separator⟩, .comma => some ⟨.array items :: rest, .value⟩
  | ⟨.object entries :: rest, .separator⟩, .comma => some ⟨.object entries :: rest, .key⟩
  | ⟨.array items :: rest, .separator⟩, .closeArray
  | ⟨.array items :: rest, .valueOrClose⟩, .closeArray => place? (arr items.reverse) rest
  | ⟨.object entries :: rest, .separator⟩, .closeObject
  | ⟨.object entries :: rest, .keyOrClose⟩, .closeObject => place? (obj entries.reverse) rest
  | _, _ => none

/-- The value, if it is complete. -/
def result? : Builder → Option Json
  | ⟨_, .nothing v⟩ => some v
  | _ => none

end Builder

/-- How far a text has been read. -/
structure Reader where
  scan : Scan
  builder : Builder

namespace Reader

/-- Nothing read yet. -/
def start : Reader := ⟨.idle, .start⟩

/-- Takes one more character. -/
def step? (r : Reader) (c : Char) : Option Reader := do
  let (tokens, scan) ← r.scan.step? c
  let builder ← tokens.foldlM Builder.feed? r.builder
  return ⟨scan, builder⟩

/-- The value of a text that ends here. -/
def finish? (r : Reader) : Option Json := do
  let tokens ← r.scan.finish?
  let builder ← tokens.foldlM Builder.feed? r.builder
  builder.result?

end Reader

/-- The value that a text writes. -/
def parse? (s : String) : Option Json := (s.toList.foldlM Reader.step? .start).bind Reader.finish?

example : (parse? "01").isNone = true ∧ (parse? "1.").isNone = true ∧ (parse? "").isNone = true := by
  decide +kernel

example : (parse? " [1, 2.5e0] ").isSome = true ∧ (parse? "\"\\ud83d\\ude00\"").isSome = true := by
  decide +kernel

end Redaction.Json
