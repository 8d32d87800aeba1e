import Mathlib.Data.List.Nodup
import Redaction.Json.Printer
import Redaction.Json.Reader

/-!
# Printed JSON is read back

A value that is printed is read back from its text, character by character. Numbers are left out.

* `Reader.Leads r cs r'`: a reader in the state `r` is in the state `r'` behind the characters.
* `Legible n v`: a value without numbers, whose objects have different keys, and which nests at
  most `n` deep.
* `Reads layout n v`: where a value may stand, and at most `n` more arrays and objects may be open,
  a reader takes in the text of `v`, at any indentation. There is one lemma for each kind of value,
  and `reads_of_legible` is the induction.
* `parse?_print` is the main statement.
-/

namespace Redaction.Json

/-! ### Readers -/

namespace Reader

variable {r r' r'' : Reader} {cs ds : List Char} {scan scan' : Scan} {b b' : Builder} {c : Char}

/-- Characters that take a reader from one state to another. -/
def Leads (r : Reader) (cs : List Char) (r' : Reader) : Prop := cs.foldlM step? r = some r'

theorem Leads.append (h : r.Leads cs r') (hthen : r'.Leads ds r'') : r.Leads (cs ++ ds) r'' := by
  unfold Leads
  rw [List.foldlM_append, h]
  exact hthen

theorem Leads.cons (h : r.Leads [c] r') (hthen : r'.Leads ds r'') : r.Leads (c :: ds) r'' :=
  h.append hthen

/-- A character that completes no token. -/
theorem leads_silent (h : scan.step? c = some ([], scan')) : Leads ⟨scan, b⟩ [c] ⟨scan', b⟩ := by
  simp [Leads, step?, h]

/-- A character that completes one token. -/
theorem leads_token {token : Token} (h : scan.step? c = some ([token], scan'))
    (hfeed : b.feed? token = some b') : Leads ⟨scan, b⟩ [c] ⟨scan', b'⟩ := by
  simp [Leads, step?, h, hfeed]

/-! ### Words and texts -/

/-- The rest of a word completes its value. -/
theorem leads_word {v : Json} (hfeed : b.feed? (.scalar v) = some b') :
    ∀ {rest : List Char}, rest ≠ [] → Leads ⟨.word rest v, b⟩ rest ⟨.idle, b'⟩
  | [], h => absurd rfl h
  | [c], _ => by
    refine leads_token ?_ hfeed
    simp [Scan.step?]
  | c :: d :: rest, _ => by
    refine (leads_silent ?_).cons (leads_word hfeed (List.cons_ne_nil d rest))
    simp [Scan.step?]

theorem hexValue?_hexDigit : ∀ n < 16, hexValue? (hexDigit n) = some n := by decide

theorem endUnicode?_of_lt {n : Nat} (h : n < 0xD800) (read : List Char) :
    Scan.endUnicode? read none n = some (.text (Char.ofNat n :: read)) := by
  have hlead : ¬(0xD800 ≤ n ∧ n < 0xDC00) := by omega
  have htrail : ¬(0xDC00 ≤ n ∧ n < 0xE000) := by omega
  simp only [Scan.endUnicode?, if_neg hlead, if_neg htrail]

/-- The escape of a control character. -/
theorem leads_unicode {read : List Char} (h : c.toNat < 0x20) :
    Leads ⟨.text read, b⟩
      ['\\', 'u', '0', '0', hexDigit (c.toNat / 16), hexDigit (c.toNat % 16)]
      ⟨.text (c :: read), b⟩ := by
  have hhigh := hexValue?_hexDigit (c.toNat / 16) (by omega)
  have hlow := hexValue?_hexDigit (c.toNat % 16) (by omega)
  have hvalue : 16 * (c.toNat / 16) + c.toNat % 16 = c.toNat := Nat.div_add_mod _ _
  -- one step for each character; the number is complete at the last
  have hfirst : Leads ⟨.text read, b⟩ ['\\', 'u', '0', '0'] ⟨.unicode read none 0 2, b⟩ := rfl
  have hsecond : Leads ⟨.unicode read none 0 2, b⟩ [hexDigit (c.toNat / 16)]
      ⟨.unicode read none (c.toNat / 16) 1, b⟩ :=
    leads_silent (by simp [Scan.step?, hhigh])
  have hthird : Leads ⟨.unicode read none (c.toNat / 16) 1, b⟩ [hexDigit (c.toNat % 16)]
      ⟨.text (c :: read), b⟩ := by
    have hend := endUnicode?_of_lt (n := c.toNat) (by omega) read
    refine leads_silent ?_
    simp [Scan.step?, hlow, hvalue, hend]
  exact hfirst.append (hsecond.append hthird)

/-- A character inside a string is taken in. -/
theorem leads_escapeChar (read : List Char) (c : Char) (b : Builder) :
    Leads ⟨.text read, b⟩ (escapeChar c) ⟨.text (c :: read), b⟩ := by
  unfold escapeChar
  by_cases hquote : c = '"'
  · subst hquote; rfl
  rw [if_neg hquote]
  by_cases hbackslash : c = '\\'
  · subst hbackslash; rfl
  rw [if_neg hbackslash]
  split
  · subst c; rfl
  split
  · subst c; rfl
  split
  · subst c; rfl
  split
  · subst c; rfl
  split
  · subst c; rfl
  split
  · next hcontrol => exact leads_unicode hcontrol
  · next hprintable =>
    refine leads_silent ?_
    simp only [Scan.step?, if_neg hquote, if_neg hbackslash, if_neg hprintable]

theorem leads_escaped (cs read : List Char) (b : Builder) :
    Leads ⟨.text read, b⟩ (cs.flatMap escapeChar) ⟨.text (cs.reverse ++ read), b⟩ := by
  induction cs generalizing read with
  | nil => rfl
  | cons c cs ih =>
    rw [List.flatMap_cons, List.reverse_cons, List.append_assoc]
    exact (leads_escapeChar read c b).append (ih (c :: read))

/-- A quoted text is the text. -/
theorem leads_quote {s : String} (hfeed : b.feed? (.scalar (.str s)) = some b') :
    Leads ⟨.idle, b⟩ (quote s) ⟨.idle, b'⟩ := by
  have hopen : Leads ⟨.idle, b⟩ ['"'] ⟨.text [], b⟩ := rfl
  have hclose : Leads ⟨.text (s.toList.reverse ++ []), b⟩ ['"'] ⟨.idle, b'⟩ := by
    refine leads_token ?_ hfeed
    simp [Scan.step?]
  exact (hopen.append (leads_escaped s.toList [] b)).append hclose

/-! ### Blanks and signs -/

/-- Between tokens, blanks change nothing. -/
theorem leads_blanks (h : ∀ c ∈ cs, c = ' ' ∨ c = '\n') : Leads ⟨.idle, b⟩ cs ⟨.idle, b⟩ := by
  induction cs with
  | nil => rfl
  | cons c cs ih =>
    obtain ⟨hc, hcs⟩ := List.forall_mem_cons.1 h
    have hfirst : Leads ⟨.idle, b⟩ [c] ⟨.idle, b⟩ := by
      rcases hc with rfl | rfl <;> rfl
    exact hfirst.cons (ih hcs)

end Reader

/-- A layout that adds nothing but blanks. -/
structure Layout.IsBlank (layout : Layout) : Prop where
  line : ∀ depth, ∀ c ∈ layout.line depth, c = ' ' ∨ c = '\n'
  afterColon : ∀ c ∈ layout.afterColon, c = ' ' ∨ c = '\n'

theorem isBlank_pretty : Layout.pretty.IsBlank where
  line depth c hc := by
    rcases List.mem_cons.1 hc with rfl | hc
    · exact .inr rfl
    · exact .inl (List.eq_of_mem_replicate hc)
  afterColon c hc := .inl (List.mem_singleton.1 hc)

/-! ### Values -/

/-- A value without numbers, whose objects have different keys, and which nests at most `n` deep. -/
inductive Legible : Nat → Json → Prop
  | null {n : Nat} : Legible n null
  | bool {n : Nat} (v : Bool) : Legible n (bool v)
  | str {n : Nat} (s : String) : Legible n (str s)
  | arr {n : Nat} {items : List Json} (h : ∀ v ∈ items, Legible n v) : Legible (n + 1) (arr items)
  | obj {n : Nat} {entries : List (String × Json)} (hkeys : (entries.map Prod.fst).Nodup)
      (h : ∀ e ∈ entries, Legible n e.2) : Legible (n + 1) (obj entries)

/-- Where a value may stand and `n` more arrays and objects may be open, a reader takes in a value
by its text. -/
def Reads (layout : Layout) (n : Nat) (v : Json) : Prop :=
  ∀ (depth : Nat) (stack : List Frame) (need : Need) (b : Builder),
    (need = .value ∨ need = .valueOrClose) → stack.length + n ≤ maxDepth →
      Builder.place? v stack = some b →
        Reader.Leads ⟨.idle, ⟨stack, need⟩⟩ (print layout depth v) ⟨.idle, b⟩

open Reader

section Values

variable {layout : Layout} {n : Nat}

theorem feed?_scalar {need : Need} (h : need = .value ∨ need = .valueOrClose) (stack : List Frame)
    (v : Json) : Builder.feed? ⟨stack, need⟩ (.scalar v) = Builder.place? v stack := by
  rcases h with rfl | rfl <;> rfl

theorem reads_null : Reads layout n null := by
  intro depth stack need b hneed _ hplace
  have hfeed := (feed?_scalar hneed stack null).trans hplace
  exact (leads_silent rfl).cons (leads_word hfeed (by simp))

theorem reads_bool (v : Bool) : Reads layout n (bool v) := by
  intro depth stack need b hneed _ hplace
  have hfeed := (feed?_scalar hneed stack (bool v)).trans hplace
  cases v <;> exact (leads_silent rfl).cons (leads_word hfeed (by simp))

theorem reads_str (s : String) : Reads layout n (str s) := by
  intro depth stack need b hneed _ hplace
  exact leads_quote ((feed?_scalar hneed stack (str s)).trans hplace)

/-- An array may be opened where a value may stand. -/
theorem leads_openArray {stack : List Frame} {need : Need}
    (h : need = .value ∨ need = .valueOrClose) (hdepth : stack.length < maxDepth) :
    Leads ⟨.idle, ⟨stack, need⟩⟩ ['['] ⟨.idle, ⟨.array [] :: stack, .valueOrClose⟩⟩ := by
  refine leads_token rfl ?_
  rcases h with rfl | rfl <;> exact if_pos hdepth

/-- An object may be opened where a value may stand. -/
theorem leads_openObject {stack : List Frame} {need : Need}
    (h : need = .value ∨ need = .valueOrClose) (hdepth : stack.length < maxDepth) :
    Leads ⟨.idle, ⟨stack, need⟩⟩ ['\x7b'] ⟨.idle, ⟨.object [] :: stack, .keyOrClose⟩⟩ := by
  refine leads_token rfl ?_
  rcases h with rfl | rfl <;> exact if_pos hdepth

variable (hlayout : layout.IsBlank)

include hlayout

/-- The items behind the first one are put in front of those before, in reverse. -/
theorem leads_printItems {stack : List Frame} (hdepth : stack.length + (n + 1) ≤ maxDepth)
    {items : List Json} (h : ∀ v ∈ items, Reads layout n v) (depth : Nat) (acc : List Json) :
    Leads ⟨.idle, ⟨.array acc :: stack, .separator⟩⟩ (printItems layout depth items)
      ⟨.idle, ⟨.array (items.reverse ++ acc) :: stack, .separator⟩⟩ := by
  induction items generalizing acc with
  | nil => rw [printItems]; rfl
  | cons v rest ih =>
    obtain ⟨hv, hrest⟩ := List.forall_mem_cons.1 h
    have hcomma : Leads ⟨.idle, ⟨.array acc :: stack, .separator⟩⟩ [',']
        ⟨.idle, ⟨.array acc :: stack, .value⟩⟩ := leads_token rfl rfl
    have hvalue := hv depth (.array acc :: stack) .value _ (.inl rfl)
      (by rw [List.length_cons]; omega) rfl
    have hreverse : (v :: rest).reverse ++ acc = rest.reverse ++ v :: acc := by simp
    rw [printItems, hreverse]
    exact ((hcomma.cons (leads_blanks (hlayout.line depth))).append hvalue).append
      (ih hrest (v :: acc))

/-- An array is read if its items are. -/
theorem reads_arr {items : List Json} (h : ∀ v ∈ items, Reads layout n v) :
    Reads layout (n + 1) (arr items) := by
  intro depth stack need b hneed hdepth hplace
  have hopen := leads_openArray hneed (show stack.length < maxDepth by omega)
  cases items with
  | nil =>
    rw [print]
    exact hopen.cons (leads_token rfl hplace)
  | cons v rest =>
    obtain ⟨hv, hrest⟩ := List.forall_mem_cons.1 h
    have hfirst := hv (depth + 1) (.array [] :: stack) .valueOrClose _ (.inr rfl)
      (by rw [List.length_cons]; omega) rfl
    have hitems := leads_printItems hlayout hdepth hrest (depth + 1) [v]
    have hclose : Leads ⟨.idle, ⟨.array (rest.reverse ++ [v]) :: stack, .separator⟩⟩ [']']
        ⟨.idle, b⟩ := by
      refine leads_token rfl ?_
      show Builder.place? (arr (rest.reverse ++ [v]).reverse) stack = some b
      simpa using hplace
    rw [print]
    exact ((((hopen.cons (leads_blanks (hlayout.line (depth + 1)))).append hfirst).append
      hitems).append (leads_blanks (hlayout.line depth))).append hclose

/-- An entry under a new key is put in front of those before. -/
theorem leads_entry {stack : List Frame} {need : Need} {acc : List (String × Json)} {k : String}
    {v : Json} (hneed : need = .key ∨ need = .keyOrClose)
    (hdepth : stack.length + (n + 1) ≤ maxDepth) (hkey : ∀ e ∈ acc, e.1 ≠ k)
    (hv : Reads layout n v) (depth : Nat) :
    Leads ⟨.idle, ⟨.object acc :: stack, need⟩⟩
      (layout.line depth ++ quote k ++ ':' :: layout.afterColon ++ print layout depth v)
      ⟨.idle, ⟨.object ((k, v) :: acc) :: stack, .separator⟩⟩ := by
  have hquote : Leads ⟨.idle, ⟨.object acc :: stack, need⟩⟩ (quote k)
      ⟨.idle, ⟨.entry acc k :: stack, .colon⟩⟩ := by
    apply leads_quote
    rcases hneed with rfl | rfl <;> rfl
  have hcolon : Leads ⟨.idle, ⟨.entry acc k :: stack, .colon⟩⟩ [':']
      ⟨.idle, ⟨.entry acc k :: stack, .value⟩⟩ := leads_token rfl rfl
  have hput : putEntry k v acc = (k, v) :: acc := by
    simpa [putEntry] using hkey
  have hvalue := hv depth (.entry acc k :: stack) .value _ (.inl rfl)
    (by rw [List.length_cons]; omega) rfl
  rw [hput] at hvalue
  exact (((leads_blanks (hlayout.line depth)).append hquote).append
    (hcolon.cons (leads_blanks hlayout.afterColon))).append hvalue

/-- The entries behind the first one are put in front of those before, in reverse, if all keys are
different. -/
theorem leads_printEntries {stack : List Frame} (hdepth : stack.length + (n + 1) ≤ maxDepth)
    {entries : List (String × Json)} (h : ∀ e ∈ entries, Reads layout n e.2) (depth : Nat)
    (acc : List (String × Json)) (hkeys : ((entries.reverse ++ acc).map Prod.fst).Nodup) :
    Leads ⟨.idle, ⟨.object acc :: stack, .separator⟩⟩ (printEntries layout depth entries)
      ⟨.idle, ⟨.object (entries.reverse ++ acc) :: stack, .separator⟩⟩ := by
  induction entries generalizing acc with
  | nil => rw [printEntries]; rfl
  | cons e rest ih =>
    obtain ⟨k, v⟩ := e
    obtain ⟨hv, hrest⟩ := List.forall_mem_cons.1 h
    have hreverse : ((k, v) :: rest).reverse ++ acc = rest.reverse ++ (k, v) :: acc := by simp
    rw [hreverse] at hkeys ⊢
    have hkey : ∀ e ∈ acc, e.1 ≠ k := by
      rw [List.map_append, List.map_cons] at hkeys
      intro e he heq
      exact (List.nodup_cons.1 (List.nodup_append.1 hkeys).2.1).1 (List.mem_map.2 ⟨e, he, heq⟩)
    have hcomma : Leads ⟨.idle, ⟨.object acc :: stack, .separator⟩⟩ [',']
        ⟨.idle, ⟨.object acc :: stack, .key⟩⟩ := leads_token rfl rfl
    have hentry := leads_entry hlayout (.inl rfl) hdepth hkey hv depth
    rw [printEntries]
    exact (hcomma.cons hentry).append (ih hrest _ hkeys)

/-- An object is read if its values are and its keys are different. -/
theorem reads_obj {entries : List (String × Json)} (hkeys : (entries.map Prod.fst).Nodup)
    (h : ∀ e ∈ entries, Reads layout n e.2) : Reads layout (n + 1) (obj entries) := by
  intro depth stack need b hneed hdepth hplace
  have hopen := leads_openObject hneed (show stack.length < maxDepth by omega)
  cases entries with
  | nil =>
    rw [print]
    exact hopen.cons (leads_token rfl hplace)
  | cons e rest =>
    obtain ⟨k, v⟩ := e
    obtain ⟨hv, hrest⟩ := List.forall_mem_cons.1 h
    have hfirst := leads_entry hlayout (k := k) (.inr rfl) hdepth (List.forall_mem_nil _) hv
      (depth + 1)
    have hreverse : rest.reverse ++ [(k, v)] = ((k, v) :: rest).reverse := List.reverse_cons.symm
    have hentries := leads_printEntries hlayout hdepth hrest (depth + 1) [(k, v)] (by
      rw [hreverse, List.map_reverse]
      exact List.nodup_reverse.2 hkeys)
    have hclose : Leads ⟨.idle, ⟨.object (rest.reverse ++ [(k, v)]) :: stack, .separator⟩⟩ ['\x7d']
        ⟨.idle, b⟩ := by
      refine leads_token rfl ?_
      show Builder.place? (obj (rest.reverse ++ [(k, v)]).reverse) stack = some b
      simpa using hplace
    rw [print]
    exact (((hopen.cons hfirst).append hentries).append (leads_blanks (hlayout.line depth))).append
      hclose

/-- A legible value is read. -/
theorem reads_of_legible {v : Json} (h : Legible n v) : Reads layout n v := by
  induction h with
  | null => exact reads_null
  | bool v => exact reads_bool v
  | str s => exact reads_str s
  | arr _ ih => exact reads_arr hlayout ih
  | obj hkeys _ ih => exact reads_obj hlayout hkeys ih

/-- **What is printed is read back**, in every layout that adds nothing but blanks, if it has no
numbers, no key twice in one object, and does not nest too deep. -/
theorem parse?_print {v : Json} (h : Legible maxDepth v) :
    parse? (String.ofList (print layout 0 v)) = some v := by
  have hread := reads_of_legible hlayout h 0 [] .value ⟨[], .nothing v⟩ (.inl rfl)
    (Nat.le_of_eq (Nat.zero_add _)) rfl
  unfold parse?
  rw [String.toList_ofList]
  exact congrArg (·.bind finish?) hread

end Values

end Redaction.Json
