import Mathlib.Algebra.Group.Int.Defs
import Redaction.Binary
import Redaction.Schema.Kind
import Redaction.Proofs.GoLexer

/-!
# Go expressions and their types

The Go types that fields have, the expressions that take the place of their values, and which
expression can be assigned to a place of which type.

* `Ty.text` and `Expr.text` are what stands in a Go file.
* `Assignable e t` follows the rules of the language: a constant has to be a value of the type,
  `nil` is a pointer, a slice or a map, and the keys of a map are comparable.
* `text_ne_nil`: what can be assigned to a place of a basic or an enum type is not written `nil`.
-/

namespace Redaction.Go

/-- A type with a name of the language. -/
inductive Basic
  | int32
  | int64
  | uint32
  | uint64
  | float32
  | float64
  | bool
  | string
  | byte
  deriving DecidableEq

/-- The name of a basic type. -/
def Basic.name : Basic → String
  | int32 => "int32"
  | int64 => "int64"
  | uint32 => "uint32"
  | uint64 => "uint64"
  | float32 => "float32"
  | float64 => "float64"
  | bool => "bool"
  | string => "string"
  | byte => "byte"

/-- The least and the greatest value of an integer type. -/
def Basic.range? : Basic → Option (Int × Int)
  | int32 => some (-2 ^ 31, 2 ^ 31 - 1)
  | int64 => some (-2 ^ 63, 2 ^ 63 - 1)
  | uint32 => some (0, 2 ^ 32 - 1)
  | uint64 => some (0, 2 ^ 64 - 1)
  | byte => some (0, 2 ^ 8 - 1)
  | _ => none

/-- A type. The types of enums and messages are declared elsewhere and known by their names. -/
inductive Ty
  | basic (b : Basic)
  | enum (name : String)
  | struct (name : String)
  | pointer (t : Ty)
  | slice (t : Ty)
  | map (key value : Ty)
  deriving DecidableEq

namespace Ty

/-- The text of a type. -/
def text : Ty → String
  | basic b => b.name
  | enum name => name
  | struct name => name
  | pointer t => "*" ++ t.text
  | slice t => "[]" ++ t.text
  | map key value => "map[" ++ key.text ++ "]" ++ value.text

/-- Whether the values of a type are known to be comparable, as the keys of a map have to be. -/
def isComparable : Ty → Bool
  | basic _ => true
  | enum _ => true
  | pointer _ => true
  | _ => false

end Ty

/-- An expression. -/
inductive Expr
  | nil
  /-- A decimal integer. -/
  | integer (v : Int)
  /-- A decimal number. -/
  | number {f : Format} (v : Binary f)
  | bool (b : Bool)
  /-- A string literal with some text. -/
  | literal (text : String)
  /-- The bytes of a string literal with some text. -/
  | bytes (text : String)
  /-- A slice or a map without elements. -/
  | empty (t : Ty)
  /-- The address of a struct with zero fields. -/
  | newStruct (t : Ty)
  /-- The address of a new variable of a type, set to the conversion of an expression. -/
  | newVariable (t : Ty) (e : Expr)

/-- The text of an expression. -/
def Expr.text : Expr → String
  | nil => "nil"
  | integer v => toString v
  | number v => v.decimal
  | bool b => toString b
  | literal text => text
  | bytes text => "[]byte(" ++ text ++ ")"
  | empty t => t.text ++ "\x7b\x7d"
  | newStruct t => "&" ++ t.text ++ "\x7b\x7d"
  | newVariable t e =>
    "func() *" ++ t.text ++ " \x7b v := " ++ t.text ++ "(" ++ e.text ++ "); return &v \x7d()"

theorem Expr.text_newVariable (t : Ty) (e : Expr) :
    (newVariable t e).text = addressOf t.text e.text := rfl

/-- An expression can be assigned to a place of a type. -/
inductive Assignable : Expr → Ty → Prop
  | nil_pointer (t : Ty) : Assignable .nil (.pointer t)
  | nil_slice (t : Ty) : Assignable .nil (.slice t)
  | nil_map (key value : Ty) : Assignable .nil (.map key value)
  | integer {v low high : Int} {b : Basic} (hrange : b.range? = some (low, high)) (hlow : low ≤ v)
      (hhigh : v ≤ high) : Assignable (.integer v) (.basic b)
  | enum {v : Int} (name : String) (hlow : -2 ^ 31 ≤ v) (hhigh : v ≤ 2 ^ 31 - 1) :
      Assignable (.integer v) (.enum name)
  | float32 {v : Binary .single} (h : v.isFinite = true) :
      Assignable (.number v) (.basic .float32)
  | float64 {v : Binary .double} (h : v.isFinite = true) :
      Assignable (.number v) (.basic .float64)
  | bool (b : Bool) : Assignable (.bool b) (.basic .bool)
  | literal {text : String} {value : List UInt8} (h : IsLiteral text value) :
      Assignable (.literal text) (.basic .string)
  | bytes {text : String} {value : List UInt8} (h : IsLiteral text value) :
      Assignable (.bytes text) (.slice (.basic .byte))
  | empty_slice (t : Ty) : Assignable (.empty (.slice t)) (.slice t)
  | empty_map {key : Ty} (value : Ty) (h : key.isComparable = true) :
      Assignable (.empty (.map key value)) (.map key value)
  | newStruct (name : String) : Assignable (.newStruct (.struct name)) (.pointer (.struct name))
  | newVariable {e : Expr} {t : Ty} (h : Assignable e t) :
      Assignable (.newVariable t e) (.pointer t)

/-! ### Texts that are not `nil` -/

/-- A decimal is written with digits and a point. -/
theorem isDigit_or_of_mem_positional {k : Nat} {e : Int} {c : Char}
    (h : c ∈ Binary.positional k e) : c.isDigit = true ∨ c = '.' := by
  have hdigits : ∀ d ∈ Nat.toDigits 10 k, d.isDigit = true :=
    fun d hd => Nat.isDigit_of_mem_toDigits (by decide) (by decide) hd
  have hzeros : ∀ n, ∀ d ∈ Binary.zeros n, d.isDigit = true := by
    intro n d hd
    rw [List.eq_of_mem_replicate hd]
    rfl
  simp only [Binary.positional] at h
  split at h
  · rcases List.mem_append.1 h with hd | hz
    · exact .inl (hdigits c hd)
    · exact .inl (hzeros _ c hz)
  · split at h
    · rcases List.mem_append.1 h with h | hd
      · rcases List.mem_append.1 h with hpoint | hz
        · rcases List.mem_cons.1 hpoint with rfl | hpoint
          · exact .inl rfl
          · exact .inr (List.mem_singleton.1 hpoint)
        · exact .inl (hzeros _ c hz)
      · exact .inl (hdigits c hd)
    · rcases List.mem_append.1 h with h | hd
      · rcases List.mem_append.1 h with hd | hpoint
        · exact .inl (hdigits c (List.mem_of_mem_take hd))
        · exact .inr (List.mem_singleton.1 hpoint)
      · exact .inl (hdigits c (List.mem_of_mem_drop hd))

/-- A number is written with digits, a point and a sign. -/
theorem isDigit_or_of_mem_decimal {f : Format} {v : Binary f} (hv : v.isFinite = true) {c : Char}
    (h : c ∈ v.decimal.toList) : c.isDigit = true ∨ c = '.' ∨ c = '-' := by
  cases v with
  | infinite => cases hv
  | nan => cases hv
  | finite negative rank =>
    have hmagnitude : ∀ d ∈ (if rank.val = 0 then ['0'] else
        Binary.positional (Binary.shortest f rank).1 (Binary.shortest f rank).2),
        d.isDigit = true ∨ d = '.' ∨ d = '-' := by
      intro d hd
      split at hd
      · rw [List.mem_singleton.1 hd]
        exact .inl rfl
      · exact (isDigit_or_of_mem_positional hd).imp id .inl
    simp only [Binary.decimal, String.toList_ofList] at h
    cases negative with
    | false => exact hmagnitude c h
    | true =>
      rcases List.mem_cons.1 h with rfl | h
      · exact .inr (.inr rfl)
      · exact hmagnitude c h

theorem isDigit_or_of_mem_toString {v : Int} {c : Char} (h : c ∈ (toString v).toList) :
    c.isDigit = true ∨ c = '-' := by
  have hdigits : ∀ n : Nat, c ∈ n.repr.toList → c.isDigit = true := by
    intro n hn
    rw [Nat.repr_eq_ofList_toDigits, String.toList_ofList] at hn
    exact Nat.isDigit_of_mem_toDigits (by decide) (by decide) hn
  cases v with
  | ofNat n => exact .inl (hdigits n h)
  | negSucc n =>
    have hmem : c ∈ ("-" ++ (n + 1).repr).toList := h
    rw [String.toList_append, List.mem_append] at hmem
    rcases hmem with hsign | hn
    · exact .inr (List.mem_singleton.1 hsign)
    · exact .inl (hdigits (n + 1) hn)

/-- What can be assigned to a place of a basic or an enum type is not written as `nil`. -/
theorem text_ne_nil {e : Expr} {t : Ty} (h : Assignable e t)
    (ht : (∃ b, t = .basic b) ∨ ∃ name, t = .enum name) : e.text ≠ nilLiteral := by
  -- a text without the letter is another one
  have hletter : ∀ s : String, 'n' ∉ s.toList → s ≠ nilLiteral := by
    rintro s hs rfl
    exact hs (by decide)
  have hinteger : ∀ v : Int, toString v ≠ nilLiteral := fun v =>
    hletter _ fun hmem => by simpa using isDigit_or_of_mem_toString hmem
  have hnumber : ∀ {f : Format} {v : Binary f}, v.isFinite = true → v.decimal ≠ nilLiteral :=
    fun hv => hletter _ fun hmem => by simpa using isDigit_or_of_mem_decimal hv hmem
  cases h with
  | integer => exact hinteger _
  | enum => exact hinteger _
  | float32 hv => exact hnumber hv
  | float64 hv => exact hnumber hv
  | bool b => cases b <;> decide
  | literal hliteral =>
    rintro rfl
    cases hliteral.readLiteral_append []
  | _ => simp at ht

end Redaction.Go
