import Redaction.Binary

/-!
# JSON values

The values that schemas are read from and plans are written as, with the readings of a value as a
text, a truth value, a whole number, a list or an object. No reading converts: a number is never
read from a text, nor a whole number from one written with a point or an exponent.
-/

namespace Redaction

/-- A JSON value. A number is an `int` if it is written without point and exponent and fits 64 bits,
signed or unsigned; any other number is the nearest `float`. -/
inductive Json where
  | null
  | bool (b : Bool)
  | int (v : Int)
  | float (v : Binary .double)
  | str (s : String)
  | arr (items : List Json)
  | obj (entries : List (String × Json))

namespace Json

/-- The value in `entries` under `key`. -/
def find? (key : String) : List (String × Json) → Option Json
  | [] => none
  | (k, v) :: rest => if k = key then some v else find? key rest

/-- The value of an object under `key`. -/
def get? (key : String) : Json → Option Json
  | obj entries => find? key entries
  | _ => none

/-- The value of an object under `key`, a missing one counting as `null`. -/
def member (j : Json) (key : String) : Json := (j.get? key).getD null

/-- The reading as a text. -/
def text? : Json → Option String
  | str s => some s
  | _ => none

/-- The reading as a truth value. -/
def bool? : Json → Option Bool
  | bool b => some b
  | _ => none

/-- The reading as a whole number. -/
def int? : Json → Option Int
  | int v => some v
  | _ => none

/-- The reading as a whole number below `bound`. -/
def below? (bound : Nat) : Json → Option Nat
  | int v => if 0 ≤ v ∧ v < bound then some v.toNat else none
  | _ => none

/-- The reading as an unsigned number of 32 bits. -/
def uint32? (j : Json) : Option UInt32 := (j.below? 4294967296).map UInt32.ofNat

/-- The reading as a byte. -/
def byte? (j : Json) : Option UInt8 := (j.below? 256).map UInt8.ofNat

/-- The reading as a number of a binary format, rounded to it. A whole number is rounded at once; a
number that was read in the wide format is rounded from there. -/
def binary? {f : Format} : Json → Option (Binary f)
  | int v => some (Binary.ofInt v)
  | float v => some v.convert
  | _ => none

/-- The reading as a list whose items are all read by `item`. -/
def list? {α : Type} (item : Json → Option α) : Json → Option (List α)
  | arr items => items.mapM item
  | _ => none

/-- A text, or `null` for none. -/
def ofText? : Option String → Json
  | some s => str s
  | none => null

@[simp] theorem text?_str (s : String) : (str s).text? = some s := rfl

@[simp] theorem bool?_bool (b : Bool) : (bool b).bool? = some b := rfl

@[simp] theorem int?_int (v : Int) : (int v).int? = some v := rfl

@[simp] theorem uint32?_int (n : UInt32) : (int n.toNat).uint32? = some n := by
  have h : (n.toNat : Int) < (4294967296 : Nat) := by exact_mod_cast n.toNat_lt
  simp only [uint32?, below?, Int.natCast_nonneg, h, and_self, if_true, Int.toNat_natCast,
    Option.map_some, UInt32.ofNat_toNat]

@[simp] theorem byte?_int (n : UInt8) : (int n.toNat).byte? = some n := by
  have h : (n.toNat : Int) < (256 : Nat) := by exact_mod_cast n.toNat_lt
  simp only [byte?, below?, Int.natCast_nonneg, h, and_self, if_true, Int.toNat_natCast,
    Option.map_some, UInt8.ofNat_toNat]

/-- A value found under a key of an object is smaller than the object. -/
theorem sizeOf_lt_of_find? {key : String} {v : Json} :
    ∀ {entries : List (String × Json)}, find? key entries = some v → sizeOf v < sizeOf entries
  | (k, w) :: rest, h => by
    unfold find? at h
    split at h
    · cases h; simp +arith
    · have := sizeOf_lt_of_find? h; simp +arith; omega

end Json
end Redaction
