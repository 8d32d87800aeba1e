import Mathlib.Data.List.DropRight
import Mathlib.Data.List.Forall2
import Redaction.Text

/-!
# Trimmed texts

What trimming leaves of a text can be told without the way blanks are taken off: it is the one part
that has nothing but blanks around it and none at its own ends.

* `Blank s`: `s` is all blanks. `Padded s t`: `t` is `s` with blanks around it. `Bare s`: `s` has no
  blank at its ends.
* `Recased s t`: `t` is `s` up to the case of ASCII letters. `Spells s t`: it is so up to blanks
  around it as well.
* `trim_eq_iff`, `trim_eq_empty_iff` and `lowerAscii_eq_iff` say what the two functions do, and
  `lowerAscii_trim_eq_of_spells` and `spells_iff` what both together.
-/

namespace Redaction.Text

/-- A text of nothing but blanks. -/
def Blank (s : String) : Prop := ∀ c ∈ s.toList, isBlank c = true

instance (s : String) : Decidable (Blank s) :=
  decidable_of_iff (s.toList.all isBlank = true) List.all_eq_true

/-- The second text is the first with blanks around it. -/
def Padded (s t : String) : Prop :=
  ∃ front back : String, Blank front ∧ Blank back ∧ t = front ++ s ++ back

/-- A text without a blank at its ends. -/
structure Bare (s : String) : Prop where
  head_eq : ∀ c, s.toList.head? = some c → isBlank c = false
  last_eq : ∀ c, s.toList.getLast? = some c → isBlank c = false

/-! ### Blanks at the ends -/

section Chars

variable {cs front back : List Char}

theorem trimChars_append_left (h : ∀ c ∈ front, isBlank c = true) :
    trimChars (front ++ cs) = trimChars cs := by
  unfold trimChars
  rw [List.dropWhile_append_of_pos h]

theorem trimChars_append_right (h : ∀ c ∈ back, isBlank c = true) :
    trimChars (cs ++ back) = trimChars cs := by
  unfold trimChars
  rw [List.dropWhile_append]
  split
  next hcs =>
    -- all is blank, so what stands behind goes with the blanks at the front
    rw [List.dropWhile_eq_nil_iff.2 h, List.isEmpty_iff.1 hcs]
  next =>
    rw [List.reverse_append, List.dropWhile_append_of_pos]
    simpa using h

/-- Only blanks are taken off. -/
theorem exists_eq_append_trimChars (cs : List Char) :
    ∃ front back : List Char, (∀ c ∈ front, isBlank c = true) ∧ (∀ c ∈ back, isBlank c = true) ∧
      cs = front ++ trimChars cs ++ back := by
  let rest := cs.dropWhile isBlank
  have hrest : trimChars cs ++ (rest.reverse.takeWhile isBlank).reverse = rest := by
    rw [trimChars, ← List.reverse_append, List.takeWhile_append_dropWhile, List.reverse_reverse]
  refine ⟨cs.takeWhile isBlank, (rest.reverse.takeWhile isBlank).reverse, ?_, ?_, ?_⟩
  · intro c hc
    exact List.mem_takeWhile_imp hc
  · intro c hc
    exact List.mem_takeWhile_imp (List.mem_reverse.1 hc)
  · rw [List.append_assoc, hrest, List.takeWhile_append_dropWhile]

theorem not_isBlank_of_head?_trimChars {c : Char} (h : (trimChars cs).head? = some c) :
    isBlank c = false := by
  obtain ⟨back, hback⟩ : trimChars cs <+: cs.dropWhile isBlank := List.rdropWhile_prefix isBlank _
  have hhead := List.head?_dropWhile_not isBlank cs
  rw [← hback, List.head?_append, h] at hhead
  simpa using hhead

theorem not_isBlank_of_getLast?_trimChars {c : Char} (h : (trimChars cs).getLast? = some c) :
    isBlank c = false := by
  have hlast := List.head?_dropWhile_not isBlank (cs.dropWhile isBlank).reverse
  rw [trimChars, List.getLast?_reverse] at h
  rw [h] at hlast
  simpa using hlast

theorem dropWhile_isBlank_eq_self (h : ∀ c, cs.head? = some c → isBlank c = false) :
    cs.dropWhile isBlank = cs := by
  cases cs with
  | nil => rfl
  | cons c cs => exact List.dropWhile_cons_of_neg (by simp [h c rfl])

end Chars

section Trim

variable {s t : String}

/-- Blanks around a text do not change what is left of it. -/
theorem trim_of_padded (h : Padded s t) : trim t = trim s := by
  obtain ⟨front, back, hfront, hback, rfl⟩ := h
  unfold trim
  rw [String.toList_append, String.toList_append, trimChars_append_right hback,
    trimChars_append_left hfront]

theorem padded_trim (s : String) : Padded (trim s) s := by
  obtain ⟨front, back, hfront, hback, hs⟩ := exists_eq_append_trimChars s.toList
  refine ⟨.ofList front, .ofList back, by simpa [Blank], by simpa [Blank], ?_⟩
  rw [← String.toList_inj]
  simpa [toList_trim] using hs

theorem bare_trim (s : String) : Bare (trim s) where
  head_eq _ hc := not_isBlank_of_head?_trimChars (toList_trim s ▸ hc)
  last_eq _ hc := not_isBlank_of_getLast?_trimChars (toList_trim s ▸ hc)

theorem trim_of_bare (h : Bare s) : trim s = s := by
  unfold trim trimChars
  rw [dropWhile_isBlank_eq_self h.head_eq, dropWhile_isBlank_eq_self, List.reverse_reverse,
    String.ofList_toList]
  simpa using h.last_eq

/-- What is left of a text has only blanks around it and none at its ends, and no other part has. -/
theorem trim_eq_iff : trim s = t ↔ Padded t s ∧ Bare t := by
  constructor
  · rintro rfl
    exact ⟨padded_trim s, bare_trim s⟩
  · rintro ⟨hpadded, hbare⟩
    rw [trim_of_padded hpadded, trim_of_bare hbare]

theorem trim_eq_empty_iff : trim s = "" ↔ Blank s := by
  constructor
  · intro h
    obtain ⟨⟨front, back, hfront, hback, rfl⟩, -⟩ := trim_eq_iff.1 h
    intro c hc
    have hc : c ∈ front.toList ∨ c ∈ back.toList := by simpa using hc
    exact hc.elim (hfront c) (hback c)
  · intro h
    exact trim_eq_iff.2 ⟨⟨s, "", h, nofun, by simp⟩, nofun, nofun⟩

end Trim

/-! ### Case of letters -/

/-- Two characters that are one up to the case of an ASCII letter. -/
inductive SameLetter : Char → Char → Prop
  | refl (c : Char) : SameLetter c c
  | lower {c d : Char} (hc : c.isUpper = true) (hd : d.toNat = c.toNat + 32) : SameLetter c d
  | upper {c d : Char} (hd : d.isUpper = true) (hc : c.toNat = d.toNat + 32) : SameLetter c d

/-- Two texts that are one up to the case of ASCII letters. -/
def Recased (s t : String) : Prop := List.Forall₂ SameLetter s.toList t.toList

section Letters

variable {c d : Char}

theorem toLower_eq_iff : c.toLower = d.toLower ↔ SameLetter c d := by
  constructor
  · intro h
    by_cases hc : c.isUpper = true <;> by_cases hd : d.isUpper = true
    · have hcd : c.toNat + 32 = d.toNat + 32 := by rw [← toNat_toLower hc, h, toNat_toLower hd]
      obtain rfl : c = d := Char.toNat_inj.1 (by omega)
      exact .refl c
    · rw [toLower_of_not_isUpper hd] at h
      exact .lower hc (h ▸ toNat_toLower hc)
    · rw [toLower_of_not_isUpper hc] at h
      exact .upper hd (h ▸ toNat_toLower hd)
    · rw [toLower_of_not_isUpper hc, toLower_of_not_isUpper hd] at h
      exact h ▸ .refl c
  · intro h
    -- a lower case letter is none of the upper case ones, and so is left as it is
    cases h with
    | refl => rfl
    | lower hc hd =>
      have hrange := isUpper_iff.1 hc
      have hlow : ¬ d.isUpper = true := fun h => by have := isUpper_iff.1 h; omega
      rw [toLower_of_not_isUpper hlow, ← Char.toNat_inj, toNat_toLower hc, hd]
    | upper hd hc =>
      have hrange := isUpper_iff.1 hd
      have hlow : ¬ c.isUpper = true := fun h => by have := isUpper_iff.1 h; omega
      rw [toLower_of_not_isUpper hlow, ← Char.toNat_inj, toNat_toLower hd, hc]

end Letters

theorem lowerAscii_eq_iff {s t : String} : lowerAscii s = lowerAscii t ↔ Recased s t := by
  rw [lowerAscii, lowerAscii, String.ofList_inj, Recased, ← List.forall₂_eq_eq_eq,
    List.forall₂_map_left_iff, List.forall₂_map_right_iff]
  simp only [toLower_eq_iff]

/-! ### Spelling of a word -/

/-- The second text is the first up to the case of ASCII letters and to blanks around it. -/
def Spells (word value : String) : Prop := ∃ core, Recased word core ∧ Padded core value

section Spells

variable {word value : String}

theorem lowerAscii_trim_eq_of_spells (h : Spells word value) :
    lowerAscii (trim value) = lowerAscii (trim word) := by
  obtain ⟨core, hcase, hpadded⟩ := h
  calc lowerAscii (trim value)
      = lowerAscii (trim core) := by rw [trim_of_padded hpadded]
    _ = trim (lowerAscii core) := (trim_lowerAscii core).symm
    _ = trim (lowerAscii word) := by rw [lowerAscii_eq_iff.2 hcase]
    _ = lowerAscii (trim word) := trim_lowerAscii word

/-- A value spells a word without blanks at its ends exactly if it comes to the same text. -/
theorem spells_iff (h : Bare word) :
    Spells word value ↔ lowerAscii (trim value) = lowerAscii word := by
  constructor
  · intro hspells
    rw [lowerAscii_trim_eq_of_spells hspells, trim_of_bare h]
  · intro hvalue
    exact ⟨trim value, lowerAscii_eq_iff.1 hvalue.symm, padded_trim value⟩

end Spells

end Redaction.Text
