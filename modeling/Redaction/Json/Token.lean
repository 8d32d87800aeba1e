import Redaction.Json.Basic

/-!
# JSON tokens

The first half of reading a JSON text. A `Scan` is what is known after some characters of the text;
`Scan.step?` takes one more character and gives the tokens that it completes.

* Blanks are space, tab, line feed and carriage return.
* A string holds no character below U+0020; `\u` escapes beyond the basic plane come in pairs.
* A number has no leading zero, and digits on both sides of a point; one too large for the wide
  binary format is no number. `-0` is the negative zero.
-/

namespace Redaction.Json

/-- A lexical item: a value without parts, or a structural character. -/
inductive Token where
  | scalar (v : Json)
  | openArray
  | closeArray
  | openObject
  | closeObject
  | comma
  | colon

/-- The number that decimal digits write. -/
def natOfDigits (digits : List Char) : Nat :=
  digits.foldl (fun n c => 10 * n + (c.toNat - 48)) 0

/-- The fraction digits of a number, and what follows them. A point needs a digit behind it. -/
def splitFraction? : List Char → Option (List Char × List Char)
  | '.' :: rest =>
    if (rest.takeWhile Char.isDigit).isEmpty then none
    else some (rest.takeWhile Char.isDigit, rest.dropWhile Char.isDigit)
  | rest => some ([], rest)

/-- The exponent of a number, from the characters behind its digits. -/
def exponent? : List Char → Option Int
  | [] => some 0
  | c :: rest =>
    if c = 'e' ∨ c = 'E' then
      let (negative, digits) := match rest with
        | '-' :: ds => (true, ds)
        | '+' :: ds => (false, ds)
        | ds => (false, ds)
      if digits.isEmpty || !digits.all Char.isDigit then none
      else some (if negative then -natOfDigits digits else natOfDigits digits)
    else none

/-- Whether an integer fits 64 bits, signed or unsigned. -/
def FitsWord (v : Int) : Prop := -9223372036854775808 ≤ v ∧ v ≤ 18446744073709551615

instance (v : Int) : Decidable (FitsWord v) := inferInstanceAs (Decidable (_ ∧ _))

/-- A finite number as a value. -/
def ofBinary? (v : Binary .double) : Option Json := if v.isFinite then some (float v) else none

/-- The value of the digits of a number: an `int` if they fit, else the nearest `float`. -/
def integerOf? (negative : Bool) (m : Nat) : Option Json :=
  let v : Int := if negative then -m else m
  if FitsWord v ∧ ¬(negative = true ∧ m = 0) then some (int v)
  else ofBinary? (Binary.ofDecimal negative m 0)

/-- The number that a sequence of characters writes. -/
def numberOf? (cs : List Char) : Option Json := do
  let (negative, cs) := match cs with
    | '-' :: rest => (true, rest)
    | rest => (false, rest)
  let whole := cs.takeWhile Char.isDigit
  let rest := cs.dropWhile Char.isDigit
  if whole.isEmpty || (whole.head? == some '0' && whole != ['0']) then none
  else if rest.isEmpty then integerOf? negative (natOfDigits whole)
  else
    let (fraction, tail) ← splitFraction? rest
    let e ← exponent? tail
    ofBinary? (Binary.ofDecimal negative (natOfDigits (whole ++ fraction)) (e - fraction.length))

/-- What is known after some characters of a text; characters read so far stand in reverse. -/
inductive Scan where
  /-- Between tokens. -/
  | idle
  /-- In a word of which `rest` is still to come. -/
  | word (rest : List Char) (value : Json)
  /-- In a number. -/
  | number (read : List Char)
  /-- In a string. -/
  | text (read : List Char)
  /-- Behind a backslash in a string. -/
  | escape (read : List Char)
  /-- In a `\u` escape with `left` digits to come, behind a leading surrogate if there is one. -/
  | unicode (read : List Char) (lead : Option Nat) (value left : Nat)
  /-- Behind a leading surrogate, where a backslash must follow. -/
  | trail (read : List Char) (lead : Nat)
  /-- Behind a leading surrogate and a backslash, where a `u` must follow. -/
  | trailMark (read : List Char) (lead : Nat)

/-- The value of a hexadecimal digit. -/
def hexValue? (c : Char) : Option Nat :=
  if '0' ≤ c ∧ c ≤ '9' then some (c.toNat - 48)
  else if 'a' ≤ c ∧ c ≤ 'f' then some (c.toNat - 87)
  else if 'A' ≤ c ∧ c ≤ 'F' then some (c.toNat - 55)
  else none

/-- The character of a short escape. -/
def shortEscape? : Char → Option Char
  | '"' => some '"'
  | '\\' => some '\\'
  | '/' => some '/'
  | 'b' => some '\x08'
  | 'f' => some '\x0c'
  | 'n' => some '\n'
  | 'r' => some '\r'
  | 't' => some '\t'
  | _ => none

namespace Scan

/-- The scan behind a complete `\u` escape. -/
def endUnicode? (read : List Char) (lead : Option Nat) (value : Nat) : Option Scan :=
  match lead with
  | some high =>
    if 0xDC00 ≤ value ∧ value < 0xE000 then
      some (text (Char.ofNat (0x10000 + (high - 0xD800) * 0x400 + (value - 0xDC00)) :: read))
    else none
  | none =>
    if 0xD800 ≤ value ∧ value < 0xDC00 then some (trail read value)
    else if 0xDC00 ≤ value ∧ value < 0xE000 then none
    else some (text (Char.ofNat value :: read))

/-- A character between tokens. -/
def start? : Char → Option (List Token × Scan)
  | ' ' | '\t' | '\n' | '\r' => some ([], idle)
  | '[' => some ([.openArray], idle)
  | ']' => some ([.closeArray], idle)
  | '\x7b' => some ([.openObject], idle)
  | '\x7d' => some ([.closeObject], idle)
  | ',' => some ([.comma], idle)
  | ':' => some ([.colon], idle)
  | '"' => some ([], text [])
  | 't' => some ([], word ['r', 'u', 'e'] (bool true))
  | 'f' => some ([], word ['a', 'l', 's', 'e'] (bool false))
  | 'n' => some ([], word ['u', 'l', 'l'] null)
  | c => if c = '-' ∨ c.isDigit then some ([], number [c]) else none

/-- Whether a character can stand in a number behind its first one. -/
def inNumber (c : Char) : Bool := c.isDigit || ['.', 'e', 'E', '+', '-'].contains c

/-- One more character: the tokens that it completes and the scan behind it. -/
def step? : Scan → Char → Option (List Token × Scan)
  | idle, c => start? c
  | word [] _, _ => none
  | word (d :: rest) v, c =>
    if c = d then some (if rest.isEmpty then ([.scalar v], idle) else ([], word rest v)) else none
  | number read, c =>
    if inNumber c then some ([], number (c :: read))
    else do
      let v ← numberOf? read.reverse
      let (tokens, scan) ← start? c
      return (.scalar v :: tokens, scan)
  | text read, c =>
    if c = '"' then some ([.scalar (str (String.ofList read.reverse))], idle)
    else if c = '\\' then some ([], escape read)
    else if c.toNat < 0x20 then none
    else some ([], text (c :: read))
  | escape read, c =>
    if c = 'u' then some ([], unicode read none 0 4)
    else (shortEscape? c).map fun d => ([], text (d :: read))
  | unicode read lead value left, c => do
    let digit ← hexValue? c
    if left ≤ 1 then (endUnicode? read lead (16 * value + digit)).map ([], ·)
    else some ([], unicode read lead (16 * value + digit) (left - 1))
  | trail read lead, c => if c = '\\' then some ([], trailMark read lead) else none
  | trailMark read lead, c => if c = 'u' then some ([], unicode read (some lead) 0 4) else none

/-- The tokens that the end of the text completes. -/
def finish? : Scan → Option (List Token)
  | idle => some []
  | number read => (numberOf? read.reverse).map ([.scalar ·])
  | _ => none

end Scan
end Redaction.Json
