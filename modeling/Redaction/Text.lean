/-!
# Texts

What the rest of the library needs of texts: the blanks that count for nothing at the ends of a
value, the lower case of the ASCII letters, and the one way to cut a text at the last place of a
character.

* `trim` and `lowerAscii` may be done in either order (`trim_lowerAscii`), since no blank is a
  letter.
* `append_cons_inj`: a text is cut in one way only at its last separator.
-/

namespace Redaction.Text

/-! ### Blank characters -/

/-- The code points with the property `White_Space`, as ranges with both ends included. -/
def whiteSpace : List (Nat × Nat) :=
  [(0x09, 0x0D), (0x20, 0x20), (0x85, 0x85), (0xA0, 0xA0), (0x1680, 0x1680), (0x2000, 0x200A),
    (0x2028, 0x2029), (0x202F, 0x202F), (0x205F, 0x205F), (0x3000, 0x3000)]

example : (whiteSpace.map fun r => r.2 + 1 - r.1).sum = 25 := by decide

/-- Whether a character has the property `White_Space`. -/
def isBlank (c : Char) : Bool :=
  whiteSpace.any fun r => decide (r.1 ≤ c.toNat) && decide (c.toNat ≤ r.2)

theorem not_isBlank_of_printable {c : Char} (hlow : 33 ≤ c.toNat) (hhigh : c.toNat ≤ 126) :
    isBlank c = false := by
  simp only [isBlank, whiteSpace, List.any_cons, List.any_nil, Bool.or_false, Bool.or_eq_false_iff,
    Bool.and_eq_false_iff, decide_eq_false_iff_not]
  omega

/-! ### Trimming -/

/-- The characters from the first that is not blank to the last that is not blank. -/
def trimChars (cs : List Char) : List Char :=
  ((cs.dropWhile isBlank).reverse.dropWhile isBlank).reverse

/-- The text without its leading and trailing blanks. -/
def trim (s : String) : String := String.ofList (trimChars s.toList)

theorem toList_trim (s : String) : (trim s).toList = trimChars s.toList := String.toList_ofList

/-! ### Lower case -/

/-- The text with the letters `A` to `Z` in lower case and every other character as it is. -/
def lowerAscii (s : String) : String := String.ofList (s.toList.map Char.toLower)

theorem lowerAscii_eq_empty_iff {s : String} : lowerAscii s = "" ↔ s = "" := by
  simp [lowerAscii]

section Letters

variable {c : Char}

theorem isUpper_iff : c.isUpper = true ↔ 65 ≤ c.toNat ∧ c.toNat ≤ 90 :=
  decide_eq_true_iff

theorem toNat_toLower (h : c.isUpper = true) : c.toLower.toNat = c.toNat + 32 := by
  have hval : c.val ≥ 'A'.val ∧ c.val ≤ 'Z'.val := of_decide_eq_true h
  have hc := isUpper_iff.1 h
  unfold Char.toLower
  rw [dif_pos hval]
  change (c.toNat + 32) % 2 ^ 32 = c.toNat + 32
  omega

theorem toLower_of_not_isUpper (h : ¬ c.isUpper = true) : c.toLower = c :=
  dif_neg fun hval => h (decide_eq_true hval)

theorem isBlank_toLower (c : Char) : isBlank c.toLower = isBlank c := by
  by_cases h : c.isUpper = true
  · have hc := isUpper_iff.1 h
    have hlower := toNat_toLower h
    rw [not_isBlank_of_printable (by omega) (by omega),
      not_isBlank_of_printable (by omega) (by omega)]
  · rw [toLower_of_not_isUpper h]

end Letters

theorem trim_lowerAscii (s : String) : trim (lowerAscii s) = lowerAscii (trim s) := by
  have hblank : isBlank ∘ Char.toLower = isBlank := funext isBlank_toLower
  simp only [trim, lowerAscii, String.toList_ofList, trimChars, ← List.map_reverse,
    List.dropWhile_map, hblank]

/-! ### The last cut -/

section Cut

variable {sep : Char} {a b c m n : List Char}

/-- Nothing stands in front of a separator that has no other one behind it. -/
theorem eq_nil_of_cons (hm : sep ∉ m) (h : sep :: m = c ++ sep :: n) : c = [] ∧ m = n := by
  cases c with
  | nil => exact ⟨rfl, (List.cons_eq_cons.1 h).2⟩
  | cons d c =>
    obtain ⟨-, hrest⟩ := List.cons_eq_cons.1 h
    exact absurd (hrest ▸ List.mem_append_right c List.mem_cons_self) hm

/-- The last separator of a text is where a part without one begins, whatever stands in front. -/
theorem append_cons_inj (hm : sep ∉ m) (hn : sep ∉ n) (h : a ++ sep :: m = b ++ sep :: n) :
    a = b ∧ m = n := by
  -- of two fronts, the longer one would have the separator of the other behind the shorter
  rcases List.append_eq_append_iff.1 h with ⟨c, hb, hc⟩ | ⟨c, ha, hc⟩
  · obtain ⟨rfl, hmn⟩ := eq_nil_of_cons hm hc
    exact ⟨by simpa using hb.symm, hmn⟩
  · obtain ⟨rfl, hnm⟩ := eq_nil_of_cons hn hc
    exact ⟨by simpa using ha, hnm.symm⟩

end Cut

end Redaction.Text
