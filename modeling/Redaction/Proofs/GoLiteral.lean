import Redaction.Proofs.GoLexer

/-!
# Literals carry their value

What is written as a Go literal is read back as the bytes it was written for.

* `Carries p q cs v`: Go source can hold the characters, and a reader at `p` that walks over them
  arrives at `q` with the bytes `v`.
* One lemma for each way of writing: a character in a raw literal, a byte and a character in an
  interpreted one. `carries_flatMap` is the one induction.
* `literals_carry` is about whole literals: texts, and bytes whether or not they are UTF-8.
-/

namespace Redaction.Go

/-- Characters that take a reader from one place to another and add some bytes. -/
structure Carries (p q : Place) (cs : List Char) (v : List UInt8) : Prop where
  walk_eq : walk p cs = some (v, q)
  isSource : IsSource cs

section Walk

variable {p q r : Place} {cs ds : List Char} {v w : List UInt8}

theorem carries_nil (p : Place) : Carries p p [] [] := ⟨rfl, fun _ hc => nomatch hc⟩

theorem carries_singleton {c : Char} (hstep : p.step c = some (v, q)) (hnul : c ≠ '\x00')
    (hmark : c ≠ byteOrderMark) : Carries p q [c] v where
  walk_eq := walk_singleton hstep
  isSource d hd := by
    obtain rfl := List.mem_singleton.1 hd
    exact ⟨hnul, hmark⟩

theorem Carries.append (h : Carries p q cs v) (hthen : Carries q r ds w) :
    Carries p r (cs ++ ds) (v ++ w) where
  walk_eq := walk_append h.walk_eq hthen.walk_eq
  isSource c hc := (List.mem_append.1 hc).elim (h.isSource c) (hthen.isSource c)

/-- What carries each of several things from a place back to it carries all of them. -/
theorem carries_flatMap {α : Type} {write : α → List Char} {bytes : α → List UInt8} {xs : List α}
    (h : ∀ x ∈ xs, Carries p p (write x) (bytes x)) :
    Carries p p (xs.flatMap write) (xs.flatMap bytes) := by
  induction xs with
  | nil => exact carries_nil p
  | cons x xs ih =>
    rw [List.flatMap_cons, List.flatMap_cons]
    exact (h x List.mem_cons_self).append (ih fun y hy => h y (List.mem_cons_of_mem x hy))

end Walk

/-! ### Characters of raw literals -/

theorem fitsRaw_iff {c : Char} :
    fitsRaw c = true ↔ c ≠ '\x60' ∧ c ≠ '\r' ∧ c ≠ '\x00' ∧ c ≠ byteOrderMark := by
  simp [fitsRaw, and_assoc]

theorem carries_raw {c : Char} (h : fitsRaw c = true) :
    Carries .raw .raw [c] (String.utf8EncodeChar c) := by
  obtain ⟨hquote, hreturn, hnul, hmark⟩ := fitsRaw_iff.1 h
  refine carries_singleton ?_ hnul hmark
  simp only [Place.step, if_neg hquote, if_neg hreturn]

/-! ### Bytes of interpreted literals -/

/-- A digit can be read, and Go source can hold it. -/
theorem hexDigit_spec : ∀ n < 16, hexValue? (hexDigit n) = some n ∧
    hexDigit n ≠ '\x00' ∧ hexDigit n ≠ byteOrderMark := by
  decide

/-- The UTF-8 form of a character below 128 is one byte. -/
theorem utf8EncodeChar_of_lt {c : Char} (h : c.toNat < 0x80) :
    String.utf8EncodeChar c = [UInt8.ofNat c.toNat] := by
  unfold String.utf8EncodeChar
  exact if_pos (Nat.le_of_lt_succ h)

theorem toNat_ofNat {n : Nat} (h : n < 0x80) : (Char.ofNat n).toNat = n := by
  rw [Char.ofNat, dif_pos (.inl (by omega))]
  rfl

theorem carries_backslash : Carries .interpreted .escape ['\\'] [] :=
  carries_singleton rfl (by decide) (by decide)

theorem carries_hex {n : Nat} (h : n < 256) :
    Carries .interpreted .interpreted ['\\', 'x', hexDigit (n / 16), hexDigit (n % 16)]
      [UInt8.ofNat n] := by
  obtain ⟨hhigh, hhigh_nul, hhigh_mark⟩ := hexDigit_spec (n / 16) (by omega)
  obtain ⟨hlow, hlow_nul, hlow_mark⟩ := hexDigit_spec (n % 16) (by omega)
  -- one step for each of the four characters; the number is complete at the last
  have hx : Carries .escape (.digits .byte 1 0) ['x'] [] :=
    carries_singleton rfl (by decide) (by decide)
  have hfirst : Carries (.digits .byte 1 0) (.digits .byte 0 (n / 16)) [hexDigit (n / 16)] [] := by
    refine carries_singleton ?_ hhigh_nul hhigh_mark
    simp only [Place.step, hhigh, Option.bind_some, Nat.mul_zero, Nat.zero_add]
  have hsecond : Carries (.digits .byte 0 (n / 16)) .interpreted [hexDigit (n % 16)]
      [UInt8.ofNat n] := by
    refine carries_singleton ?_ hlow_nul hlow_mark
    simp only [Place.step, hlow, Option.bind_some, Numbered.bytes?, Option.map_some, Nat.div_add_mod]
  exact carries_backslash.append (hx.append (hfirst.append hsecond))

/-- A character that stands for itself between quotation marks. -/
theorem carries_self {c : Char} (hquote : c ≠ '"') (hbackslash : c ≠ '\\') (hline : c ≠ '\n')
    (hnul : c ≠ '\x00') (hmark : c ≠ byteOrderMark) :
    Carries .interpreted .interpreted [c] (String.utf8EncodeChar c) := by
  refine carries_singleton ?_ hnul hmark
  simp only [Place.step, if_neg hquote, if_neg hbackslash, if_neg hline]

theorem carries_printable {n : Nat} (hquote : n ≠ 0x22) (hbackslash : n ≠ 0x5C) (hlow : 0x20 ≤ n)
    (hhigh : n ≤ 0x7E) :
    Carries .interpreted .interpreted [Char.ofNat n] [UInt8.ofNat n] := by
  have hn : (Char.ofNat n).toNat = n := toNat_ofNat (by omega)
  -- a character is told from the special ones by its number
  have hne : ∀ d : Char, n ≠ d.toNat → Char.ofNat n ≠ d := by
    rintro d hd rfl
    exact hd hn.symm
  have hself := carries_self (hne '"' hquote) (hne '\\' hbackslash)
    (hne '\n' (fun h => by simp at h; omega)) (hne '\x00' (fun h => by simp at h; omega))
    (hne byteOrderMark (fun h => by simp [byteOrderMark] at h; omega))
  rwa [utf8EncodeChar_of_lt (by omega), hn] at hself

/-- A letter after a backslash. -/
theorem carries_plainEscape {letter e : Char} (h : plainEscape? letter = some e) :
    Carries .interpreted .interpreted ['\\', letter] (String.utf8EncodeChar e) := by
  have hne : ∀ d : Char, plainEscape? d = none → letter ≠ d := by
    rintro d hd rfl
    cases h.symm.trans hd
  have hletter : Carries .escape .interpreted [letter] (String.utf8EncodeChar e) := by
    refine carries_singleton ?_ (hne _ rfl) (hne _ rfl)
    simp only [Place.step, if_neg (hne 'x' rfl), if_neg (hne 'u' rfl), h, Option.map_some]
  exact carries_backslash.append hletter

theorem carries_escapeByte {n : Nat} (h : n < 256) :
    Carries .interpreted .interpreted (escapeByte n) [UInt8.ofNat n] := by
  unfold escapeByte
  by_cases hbackslash : n = 0x5C
  · subst hbackslash
    exact carries_plainEscape (rfl : plainEscape? '\\' = some '\\')
  rw [if_neg hbackslash]
  by_cases hquote : n = 0x22
  · subst hquote
    exact carries_plainEscape (rfl : plainEscape? '"' = some '"')
  rw [if_neg hquote]
  split
  · subst n; exact carries_plainEscape (rfl : plainEscape? 'n' = some '\n')
  split
  · subst n; exact carries_plainEscape (rfl : plainEscape? 'r' = some '\r')
  split
  · subst n; exact carries_plainEscape (rfl : plainEscape? 't' = some '\t')
  split
  · next hprintable => exact carries_printable hquote hbackslash hprintable.1 hprintable.2
  · exact carries_hex h

/-! ### Characters of interpreted literals -/

/-- The byte order mark is the one character that is written by its code point. -/
theorem carries_mark :
    Carries .interpreted .interpreted ['\\', 'u', 'f', 'e', 'f', 'f']
      (String.utf8EncodeChar byteOrderMark) where
  walk_eq := by decide
  isSource := by decide

theorem carries_escapeChar (c : Char) :
    Carries .interpreted .interpreted (escapeChar c) (String.utf8EncodeChar c) := by
  unfold escapeChar
  split
  · next hlow =>
    rw [utf8EncodeChar_of_lt hlow]
    exact carries_escapeByte (by omega)
  · next hhigh =>
    split
    · next hmark =>
      subst hmark
      exact carries_mark
    · next hmark =>
      -- all characters with a meaning of their own are ASCII
      have hne : ∀ d : Char, d.toNat < 0x80 → c ≠ d := by
        rintro d hd rfl
        exact hhigh hd
      exact carries_self (hne _ (by decide)) (hne _ (by decide)) (hne _ (by decide))
        (hne _ (by decide)) hmark

/-! ### Whole literals -/

/-- What reaches the place after a literal is that literal. -/
theorem Carries.isLiteral {cs : List Char} {v : List UInt8} (h : Carries .before .after cs v) :
    IsLiteral (String.ofList cs) v where
  readLiteral_append rest := by
    rw [String.toList_ofList]
    exact readFrom_append h.walk_eq rest
  isSource := by
    rw [String.toList_ofList]
    exact h.isSource

/-- The mark that opens a literal closes it. -/
theorem Carries.enclose {mark : Char} {p : Place} {cs : List Char} {v : List UInt8}
    (h : Carries p p cs v) (hopen : Place.before.step mark = some ([], p))
    (hclose : p.step mark = some ([], .after)) (hsource : IsSource [mark]) :
    Carries .before .after (mark :: cs ++ [mark]) v := by
  obtain ⟨hnul, hmark⟩ := hsource mark List.mem_cons_self
  have hfirst : Carries .before p [mark] [] := carries_singleton hopen hnul hmark
  have hlast : Carries p .after [mark] [] := carries_singleton hclose hnul hmark
  simpa using (hfirst.append h).append hlast

theorem carries_textLiteralChars (cs : List Char) :
    Carries .before .after (textLiteralChars cs) (cs.flatMap String.utf8EncodeChar) := by
  unfold textLiteralChars
  split
  · next hraw =>
    have hinside : Carries .raw .raw (cs.flatMap fun c => [c]) (cs.flatMap String.utf8EncodeChar) :=
      carries_flatMap fun c hc => carries_raw (List.all_eq_true.1 hraw c hc)
    rw [List.flatMap_singleton'] at hinside
    exact hinside.enclose rfl rfl (by decide)
  · have hinside : Carries .interpreted .interpreted (cs.flatMap escapeChar)
        (cs.flatMap String.utf8EncodeChar) := carries_flatMap fun c _ => carries_escapeChar c
    exact hinside.enclose rfl rfl (by decide)

theorem carries_escapedBytes (bytes : List UInt8) :
    Carries .before .after ('"' :: bytes.flatMap (fun n => escapeByte n.toNat) ++ ['"']) bytes := by
  have hinside : Carries .interpreted .interpreted (bytes.flatMap fun n => escapeByte n.toNat)
      (bytes.flatMap fun n => [UInt8.ofNat n.toNat]) :=
    carries_flatMap fun n _ => carries_escapeByte n.toNat_lt
  have hbytes : (bytes.flatMap fun n => [UInt8.ofNat n.toNat]) = bytes := by simp
  rw [hbytes] at hinside
  exact hinside.enclose rfl rfl (by decide)

/-- The bytes of a text are the UTF-8 forms of its characters. -/
theorem bytes_toUTF8 (s : String) :
    s.toUTF8.data.toList = s.toList.flatMap String.utf8EncodeChar := by
  rw [String.toUTF8_eq_toByteArray, ← String.utf8Encode_toList, List.utf8Encode,
    List.data_toByteArray]

/-- The text of some bytes has these bytes. -/
theorem bytes_of_utf8Text? {bytes : List UInt8} {s : String} (h : utf8Text? bytes = some s) :
    s.toUTF8.data.toList = bytes := by
  unfold utf8Text? String.fromUTF8? at h
  split at h
  · cases h; rfl
  · cases h

/-- The literal inside the expression for some bytes carries them. -/
theorem exists_byteSliceLiteral_eq (bytes : List UInt8) :
    ∃ cs, byteSliceLiteral bytes = String.ofList ("[]byte(".toList ++ cs ++ [')']) ∧
      Carries .before .after cs bytes := by
  unfold byteSliceLiteral
  cases h : utf8Text? bytes with
  | some s =>
    refine ⟨_, rfl, ?_⟩
    rw [← bytes_of_utf8Text? h, bytes_toUTF8]
    exact carries_textLiteralChars s.toList
  | none => exact ⟨_, rfl, carries_escapedBytes bytes⟩

/-- **Literals carry their value.** The literal of a text reads as the UTF-8 form of the text. The
expression for bytes is a conversion of a literal that reads as these bytes. -/
theorem literals_carry :
    (∀ s : String, IsLiteral (textLiteral s) s.toUTF8.data.toList) ∧
      ∀ bytes : List UInt8, ∃ literal : String,
        byteSliceLiteral bytes = "[]byte(" ++ literal ++ ")" ∧ IsLiteral literal bytes := by
  refine ⟨fun s => ?_, fun bytes => ?_⟩
  · rw [bytes_toUTF8]
    exact (carries_textLiteralChars s.toList).isLiteral
  · obtain ⟨cs, hbytes, hcs⟩ := exists_byteSliceLiteral_eq bytes
    refine ⟨String.ofList cs, ?_, hcs.isLiteral⟩
    rw [hbytes, String.ofList_append, String.ofList_append, String.ofList_toList]

end Redaction.Go
