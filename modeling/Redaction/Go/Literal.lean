/-!
# Go literals

Go expressions for texts, bytes and pointers to scalars.

* A text is written raw, between back quotes, wherever a raw literal can hold it: not with a back
  quote in it, nor with a carriage return, which Go drops from raw literals, nor with NUL or a byte
  order mark, which Go source may not hold.
* Any other text is written between quotation marks with escapes.
* Bytes are a conversion of a text literal if they are UTF-8, and of escaped bytes otherwise.
-/

namespace Redaction.Go

/-- The byte order mark. -/
def byteOrderMark : Char := '\ufeff'

/-- Whether a raw literal can hold a character. -/
def fitsRaw (c : Char) : Bool := c != '\x60' && c != '\r' && c != '\x00' && c != byteOrderMark

/-- The lower-case hexadecimal digit of a number below 16. -/
def hexDigit (n : Nat) : Char := if n < 10 then Char.ofNat (48 + n) else Char.ofNat (87 + n)

/-- A byte inside an interpreted literal. -/
def escapeByte (n : Nat) : List Char :=
  if n = 0x5C then ['\\', '\\']
  else if n = 0x22 then ['\\', '"']
  else if n = 0x0A then ['\\', 'n']
  else if n = 0x0D then ['\\', 'r']
  else if n = 0x09 then ['\\', 't']
  else if 0x20 ≤ n ∧ n ≤ 0x7E then [Char.ofNat n]
  else ['\\', 'x', hexDigit (n / 16), hexDigit (n % 16)]

/-- A character inside an interpreted literal. -/
def escapeChar (c : Char) : List Char :=
  if c.toNat < 0x80 then escapeByte c.toNat
  else if c = byteOrderMark then ['\\', 'u', 'f', 'e', 'f', 'f']
  else [c]

/-- The literal of a text, as characters. -/
def textLiteralChars (cs : List Char) : List Char :=
  if cs.all fitsRaw then '\x60' :: cs ++ ['\x60'] else '"' :: cs.flatMap escapeChar ++ ['"']

/-- The literal of a text. -/
def textLiteral (s : String) : String := String.ofList (textLiteralChars s.toList)

/-- The text whose UTF-8 form the bytes are. -/
def utf8Text? (bytes : List UInt8) : Option String := String.fromUTF8? ⟨bytes.toArray⟩

/-- The Go expression of type `[]byte` for some bytes. -/
def byteSliceLiteral (bytes : List UInt8) : String :=
  let inner := match utf8Text? bytes with
    | some s => textLiteralChars s.toList
    | none => '"' :: bytes.flatMap (fun n => escapeByte n.toNat) ++ ['"']
  String.ofList ("[]byte(".toList ++ inner ++ [')'])

example : textLiteral "a\nb" = "\x60a\nb\x60" := by decide +kernel

example : textLiteral "a\x60b" = "\"a\x60b\"" := by decide +kernel

example : byteSliceLiteral [0xFF, 0x41] = "[]byte(\"\\xffA\")" := by decide +kernel

/-- The Go expression for a pointer to a new variable of a type, set to a literal. -/
def addressOf (goType literal : String) : String :=
  "func() *" ++ goType ++ " \x7b v := " ++ goType ++ "(" ++ literal ++ "); return &v \x7d()"

/-- The Go expression for a value of a type without elements or with zero fields. -/
def emptyOf (goType : String) : String := goType ++ "\x7b\x7d"

end Redaction.Go
