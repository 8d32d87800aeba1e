/-!
# Binary floating-point numbers

Values of an interchange format with `fractionBits` explicit significand bits and `exponentBits`
exponent bits, without infinities and not-a-numbers treated as numbers.

A finite value is a sign and a *rank*: the position of its magnitude among all finite magnitudes in
increasing order, zero being rank 0. Magnitudes are whole multiples of the least positive one,
`2 ^ (-scale)`, and `units` counts them. Rounding is to nearest, an exact tie going to the even
rank; what lies half a step or more beyond the greatest magnitude becomes infinite.
-/

namespace Redaction

/-- The widths of the two magnitude fields of a binary format. -/
structure Format where
  fractionBits : Nat
  exponentBits : Nat
deriving DecidableEq

namespace Format

/-- The format of 32 bits. -/
def single : Format := ⟨23, 8⟩

/-- The format of 64 bits. -/
def double : Format := ⟨52, 11⟩

/-- The number of magnitudes from one power of two up to the next. -/
def binade (f : Format) : Nat := Nat.pow 2 f.fractionBits

/-- The number of finite magnitudes. -/
def size (f : Format) : Nat := (Nat.pow 2 f.exponentBits - 1) * f.binade

/-- The least positive magnitude is `2 ^ (-scale)`. -/
def scale (f : Format) : Nat := Nat.pow 2 (f.exponentBits - 1) - 2 + f.fractionBits

/-- The number of least positive magnitudes that make up one. -/
def one (f : Format) : Nat := Nat.pow 2 f.scale

/-- The magnitude of a rank, counted in least positive magnitudes. -/
def units (f : Format) (rank : Nat) : Nat :=
  if rank < f.binade then rank
  else (f.binade + rank % f.binade) * Nat.pow 2 (rank / f.binade - 1)

example : single.scale = 149 ∧ double.scale = 1074 := by decide

end Format

/-- The quotient `n / d` as a whole number, an exact tie going to the even one. -/
def roundQuotient (n d : Nat) : Nat :=
  let q := n / d
  let r := n % d
  if 2 * r < d then q else if d < 2 * r then q + 1 else if q % 2 = 0 then q else q + 1

/-- The rank nearest to the magnitude `n / d`; a rank of `f.size` or more stands for infinity. -/
def Format.nearestRank (f : Format) (n d : Nat) : Nat :=
  let x := n * f.one
  let shift := (x / d).log2 - f.fractionBits
  roundQuotient x (d * Nat.pow 2 shift) + shift * f.binade

/-- A number of a binary format, an infinity, or no number. -/
inductive Binary (f : Format) where
  | finite (negative : Bool) (rank : Fin f.size)
  | infinite (negative : Bool)
  | nan
deriving DecidableEq

namespace Binary

variable {f g : Format}

/-- Whether the value is a number. -/
def isFinite : Binary f → Bool
  | finite _ _ => true
  | _ => false

/-- The value of a sign and a rank, infinite where no finite magnitude has the rank. -/
def ofRank (negative : Bool) (rank : Nat) : Binary f :=
  if h : rank < f.size then finite negative ⟨rank, h⟩ else infinite negative

/-- The value nearest to `n / d` with the given sign. -/
def ofRatio (negative : Bool) (n d : Nat) : Binary f := ofRank negative (f.nearestRank n d)

/-- The value nearest to an integer. -/
def ofInt (v : Int) : Binary f := ofRatio (decide (v < 0)) v.natAbs 1

/-- The value nearest to `m * 10 ^ e` with the given sign. Exponents far outside the format are
settled by their size alone. -/
def ofDecimal (negative : Bool) (m : Nat) (e : Int) : Binary f :=
  if m = 0 then ofRank negative 0
  else if ((Nat.pow 2 f.exponentBits : Nat) : Int) < e then infinite negative
  else if e < -(m.log2 + f.scale + 2 : Nat) then ofRank negative 0
  else ofRatio negative (m * Nat.pow 10 e.toNat) (Nat.pow 10 (-e).toNat)

/-- The same number in another format, rounded where that format is narrower. -/
def convert : Binary f → Binary g
  | finite negative rank => ofRatio negative (f.units rank) f.one
  | infinite negative => infinite negative
  | nan => nan

/-! ### Decimal text -/

/-- Whether twice the units `x / y` lie in the interval of magnitudes that round to `rank`; the ends
belong to it exactly if the rank is even. -/
def roundsTo (f : Format) (rank x y : Nat) : Bool :=
  let low := (f.units (rank - 1) + f.units rank) * y
  let high := (f.units rank + f.units (rank + 1)) * y
  if rank % 2 = 0 then decide (low ≤ x) && decide (x ≤ high)
  else decide (low < x) && decide (x < high)

/-- The multiple of `10 ^ e` that is nearest to the magnitude of `rank` among those that round to
it, an exact tie going to the greater one. -/
def multipleAt? (f : Format) (rank : Nat) (e : Int) : Option Nat :=
  let step := 2 * f.one * Nat.pow 10 e.toNat
  let parts := Nat.pow 10 (-e).toNat
  let x := 2 * f.units rank * parts
  let k := x / step
  let below := roundsTo f rank (k * step) parts
  let above := roundsTo f rank ((k + 1) * step) parts
  if above && (!below || decide (step ≤ 2 * (x - k * step))) then some (k + 1)
  else if below then some k else none

/-- The coarsest of the decimal grids `10 ^ e`, `10 ^ (e - 1)`, … that has a multiple rounding to
`rank`, with that multiple. -/
def coarsest (f : Format) (rank : Nat) : Nat → Int → Nat × Int
  | 0, e => ((multipleAt? f rank e).getD 0, e)
  | fuel + 1, e =>
    match multipleAt? f rank e with
    | some k => (k, e)
    | none => coarsest f rank fuel (e - 1)

/-- The shortest decimal `k * 10 ^ e` that rounds to the magnitude of a positive rank. -/
def shortest (f : Format) (rank : Nat) : Nat × Int :=
  let places := (toString ((f.units rank + f.units (rank + 1)) / (2 * f.one))).length
  coarsest f rank (places + f.scale + 1) places

/-- A number of zeros in a row. -/
def zeros (n : Nat) : List Char := List.replicate n '0'

/-- The decimal `k * 10 ^ e` without an exponent and without a fraction of zeros. -/
def positional (k : Nat) (e : Int) : List Char :=
  let digits := Nat.toDigits 10 k
  if 0 ≤ e then digits ++ zeros e.toNat
  else
    let places := (-e).toNat
    if digits.length ≤ places then ['0', '.'] ++ zeros (places - digits.length) ++ digits
    else digits.take (digits.length - places) ++ ['.'] ++ digits.drop (digits.length - places)

/-- The text of a value: the shortest decimal that reads back, never with an exponent. Negative
zero keeps its sign. -/
def decimal : Binary f → String
  | finite negative rank =>
    let digits := if rank.val = 0 then ['0'] else
      let p := shortest f rank
      positional p.1 p.2
    String.ofList (if negative then '-' :: digits else digits)
  | infinite negative => if negative then "-inf" else "inf"
  | nan => "NaN"

example : (ofDecimal false 1 (-1) : Binary .double).decimal = "0.1" := by decide +kernel

example : (ofDecimal true 0 0 : Binary .double).decimal = "-0" := by decide +kernel

example : (ofDecimal false 1 21 : Binary .double).decimal = "1000000000000000000000" := by
  decide +kernel

example : ((ofDecimal false 1 (-1) : Binary .single).convert : Binary .double).decimal =
    "0.10000000149011612" := by decide +kernel

example : (ofDecimal false 5 (-324) : Binary .double) = ofRank false 1 := by decide +kernel

example : (ofDecimal false 1 400 : Binary .double) = infinite false := by decide +kernel

end Binary
end Redaction
