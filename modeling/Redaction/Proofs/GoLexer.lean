import Redaction.Go.Literal

/-!
# Reading Go string literals

A machine that reads a string literal as the rules of Go say and collects the bytes of its value. It
takes nothing from the way in which literals are written here but the byte order mark.

* A raw literal stands between back quotes and has no escapes. Carriage returns in it are dropped.
* An interpreted literal stands between quotation marks on one line. After a backslash come one of
  the letters of `plainEscape?`, `x` and the two digits of a byte, or `u` and the four digits of a
  code point. Any other escape is refused.
* Any other character stands for its UTF-8 form.
* `readLiteral` reads one complete literal and leaves the rest of the text.
-/

namespace Redaction.Go

/-- The number of a hexadecimal digit. -/
def hexValue? (c : Char) : Option Nat :=
  if '0' ≤ c ∧ c ≤ '9' then some (c.toNat - 48)
  else if 'a' ≤ c ∧ c ≤ 'f' then some (c.toNat - 87)
  else if 'A' ≤ c ∧ c ≤ 'F' then some (c.toNat - 55)
  else none

/-- The character that a letter after a backslash stands for. -/
def plainEscape? : Char → Option Char
  | '\\' => some '\\'
  | '"' => some '"'
  | 'n' => some '\n'
  | 'r' => some '\r'
  | 't' => some '\t'
  | _ => none

/-- What the digits of an escape number. -/
inductive Numbered
  | byte
  | codePoint
  deriving DecidableEq

/-- The bytes of what a number stands for. A surrogate is not a code point of any text. -/
def Numbered.bytes? : Numbered → Nat → Option (List UInt8)
  | .byte, n => some [UInt8.ofNat n]
  | .codePoint, n => if n.isValidChar then some (String.utf8EncodeChar (Char.ofNat n)) else none

/-- A place in or around a literal. -/
inductive Place
  | before
  | raw
  | interpreted
  | escape
  /-- Inside the digits of an escape, with the number of digits that follow the next one. -/
  | digits (what : Numbered) (more : Nat) (value : Nat)
  | after
  deriving DecidableEq

/-- The bytes that one character adds and the place after it. -/
def Place.step : Place → Char → Option (List UInt8 × Place)
  | .before, c =>
    if c = '\x60' then some ([], .raw)
    else if c = '"' then some ([], .interpreted)
    else none
  | .raw, c =>
    if c = '\x60' then some ([], .after)
    else if c = '\r' then some ([], .raw)
    else some (String.utf8EncodeChar c, .raw)
  | .interpreted, c =>
    if c = '"' then some ([], .after)
    else if c = '\\' then some ([], .escape)
    else if c = '\n' then none
    else some (String.utf8EncodeChar c, .interpreted)
  | .escape, c =>
    if c = 'x' then some ([], .digits .byte 1 0)
    else if c = 'u' then some ([], .digits .codePoint 3 0)
    else (plainEscape? c).map fun e => (String.utf8EncodeChar e, .interpreted)
  | .digits what more n, c => (hexValue? c).bind fun d =>
    match more with
    | 0 => (what.bytes? (16 * n + d)).map fun v => (v, .interpreted)
    | more + 1 => some ([], .digits what more (16 * n + d))
  | .after, _ => none

/-- The bytes that a stretch of text adds and the place after it. -/
def walk : Place → List Char → Option (List UInt8 × Place)
  | p, [] => some ([], p)
  | p, c :: cs => (p.step c).bind fun a => (walk a.2 cs).map fun b => (a.1 ++ b.1, b.2)

/-- The bytes up to the end of a literal and the text after it. -/
def readFrom : Place → List Char → Option (List UInt8 × List Char)
  | .after, rest => some ([], rest)
  | _, [] => none
  | p, c :: cs => (p.step c).bind fun a => (readFrom a.2 cs).map fun b => (a.1 ++ b.1, b.2)

/-- The value of the literal at the front of a text and the text after it. -/
def readLiteral (cs : List Char) : Option (List UInt8 × List Char) := readFrom .before cs

example : readLiteral "\"\\xffA\") + b".toList = some ([0xFF, 0x41], ") + b".toList) := by
  decide +kernel

/-- Go source can hold a text: it has neither NUL nor a byte order mark. -/
def IsSource (cs : List Char) : Prop := ∀ c ∈ cs, c ≠ '\x00' ∧ c ≠ byteOrderMark

instance (cs : List Char) : Decidable (IsSource cs) := List.decidableBAll _ cs

/-- A text is one complete string literal of some value, whatever comes after it. -/
structure IsLiteral (literal : String) (value : List UInt8) : Prop where
  readLiteral_append : ∀ rest, readLiteral (literal.toList ++ rest) = some (value, rest)
  isSource : IsSource literal.toList

/-! ### Walking -/

variable {p q r : Place} {c : Char} {cs ds : List Char} {v w : List UInt8}

@[simp] theorem walk_nil (p : Place) : walk p [] = some ([], p) := rfl

theorem walk_cons_of_step (h : p.step c = some (v, q)) :
    walk p (c :: cs) = (walk q cs).map fun b => (v ++ b.1, b.2) := by
  rw [walk, h, Option.bind_some]

theorem walk_singleton (h : p.step c = some (v, q)) : walk p [c] = some (v, q) := by
  rw [walk_cons_of_step h, walk_nil, Option.map_some, List.append_nil]

/-- A walk that arrives has taken its first step. -/
theorem walk_cons_eq_some_iff :
    walk p (c :: cs) = some (w, r) ↔
      ∃ v q u, p.step c = some (v, q) ∧ walk q cs = some (u, r) ∧ w = v ++ u := by
  rw [walk]
  constructor
  · intro h
    obtain ⟨⟨v, q⟩, hstep, h⟩ := Option.bind_eq_some_iff.1 h
    obtain ⟨⟨u, r'⟩, hwalk, hw⟩ := Option.map_eq_some_iff.1 h
    cases hw
    exact ⟨v, q, u, hstep, hwalk, rfl⟩
  · rintro ⟨v, q, u, hstep, hwalk, rfl⟩
    rw [hstep, Option.bind_some, hwalk, Option.map_some]

/-- Walks compose. -/
theorem walk_append (hfirst : walk p cs = some (v, q)) (hthen : walk q ds = some (w, r)) :
    walk p (cs ++ ds) = some (v ++ w, r) := by
  induction cs generalizing p v with
  | nil => cases hfirst; exact hthen
  | cons c cs ih =>
    obtain ⟨x, p', u, hstep, hwalk, rfl⟩ := walk_cons_eq_some_iff.1 hfirst
    refine walk_cons_eq_some_iff.2 ⟨x, p', u ++ w, hstep, ih hwalk, ?_⟩
    rw [List.append_assoc]

theorem readFrom_cons_of_step (h : p.step c = some (v, q)) :
    readFrom p (c :: cs) = (readFrom q cs).map fun b => (v ++ b.1, b.2) := by
  cases p with
  | after => cases h -- no step leads on from the end of a literal
  | _ => rw [readFrom, h, Option.bind_some]; exact nofun

/-- A walk to the end of a literal reads that literal, whatever comes after it. -/
theorem readFrom_append (h : walk p cs = some (v, .after)) (rest : List Char) :
    readFrom p (cs ++ rest) = some (v, rest) := by
  induction cs generalizing p v with
  | nil => cases h; simp [readFrom]
  | cons c cs ih =>
    obtain ⟨x, q, u, hstep, hwalk, rfl⟩ := walk_cons_eq_some_iff.1 h
    rw [List.cons_append, readFrom_cons_of_step hstep, ih hwalk, Option.map_some]

end Redaction.Go
