import Mathlib.Data.List.Infix
import Redaction.Template

/-!
# Placeholders are replaced in one pass

A template is cut at its placeholders from the left. Each cut is at the first placeholder that
begins behind the cut before, and what is left in the end has none. The names go in at the cuts, and
all else stays; what a name contains counts for nothing.

* `Divided cs cuts tail` says how a text is cut, without reference to the way in which it is read.
  Every text can be cut (`exists_divided`).
* `pieces_of_divided`: reading a text finds the placeholders at which it is cut, and no others.
* `PassEnds` is a pass that goes from one percent sign to the next; `passEnds_iff` says that it ends
  with the pieces filled.
* `fill_divided` is the main statement.
-/

namespace Redaction.Template

/-- A placeholder of a template. -/
inductive Placeholder where
  | service
  | method
deriving DecidableEq

namespace Placeholder

/-- The text of a placeholder. -/
def mark : Placeholder → List Char
  | service => serviceMark
  | method => methodMark

/-- The piece that a placeholder is. -/
def piece : Placeholder → Piece
  | service => .service
  | method => .method

/-- The name that goes in for a placeholder. -/
def name (service method : String) : Placeholder → String
  | .service => service
  | .method => method

theorem forall_iff {P : Placeholder → Prop} : (∀ p, P p) ↔ P service ∧ P method :=
  ⟨fun h => ⟨h _, h _⟩, fun h p => by cases p <;> simp [h]⟩

instance {P : Placeholder → Prop} [DecidablePred P] : Decidable (∀ p, P p) :=
  decidable_of_iff' _ forall_iff

end Placeholder

/-- No placeholder begins at the front of a text. -/
def Plain (cs : List Char) : Prop := ∀ p : Placeholder, ¬p.mark <+: cs

instance (cs : List Char) : Decidable (Plain cs) :=
  inferInstanceAs (Decidable (∀ p : Placeholder, ¬p.mark <+: cs))

/-- A text cut at its placeholders: each cut has the characters in front of it and the placeholder,
which is the first that begins behind the cut before. No placeholder is in the tail. -/
inductive Divided : List Char → List (List Char × Placeholder) → List Char → Prop
  | tail {tail : List Char} (h : ∀ p : Placeholder, ¬p.mark <:+: tail) : Divided tail [] tail
  | cut {gap rest tail : List Char} {p : Placeholder} {cuts : List (List Char × Placeholder)}
      (hfirst : ∀ n < gap.length, Plain ((gap ++ p.mark ++ rest).drop n))
      (h : Divided rest cuts tail) : Divided (gap ++ p.mark ++ rest) ((gap, p) :: cuts) tail

/-! ### Every text can be cut -/

/-- A character at which no placeholder begins goes in front of the first cut. -/
theorem Divided.cons {c : Char} {cs tail : List Char} {cuts : List (List Char × Placeholder)}
    (hc : Plain (c :: cs)) (h : Divided cs cuts tail) :
    ∃ cuts tail, Divided (c :: cs) cuts tail := by
  cases h with
  | tail h =>
    refine ⟨[], c :: cs, .tail fun p hinfix => ?_⟩
    rcases List.infix_cons_iff.1 hinfix with hfront | hinfix
    · exact hc p hfront
    · exact h p hinfix
  | @cut gap rest _ p cuts hfirst h =>
    refine ⟨(c :: gap, p) :: cuts, tail, @Divided.cut (c :: gap) _ _ _ _ (fun n hn => ?_) h⟩
    cases n with
    | zero => exact hc
    | succ n => exact hfirst n (Nat.lt_of_succ_lt_succ hn)

/-- A placeholder in front is the first cut. -/
theorem Divided.mark {rest tail : List Char} {cuts : List (List Char × Placeholder)}
    (p : Placeholder) (h : Divided rest cuts tail) :
    Divided (p.mark ++ rest) (([], p) :: cuts) tail :=
  @Divided.cut [] rest tail p cuts (fun n hn => absurd hn (Nat.not_lt_zero n)) h

theorem exists_divided (cs : List Char) : ∃ cuts tail, Divided cs cuts tail := by
  fun_induction pieces cs with
  | case1 => exact ⟨[], [], .tail fun p => by cases p <;> decide⟩
  | case2 c rest h ih =>
    obtain ⟨cuts, tail, hrest⟩ := ih
    rw [← append_drop_of_isPrefixOf h]
    exact ⟨_, tail, hrest.mark .service⟩
  | case3 c rest _ h ih =>
    obtain ⟨cuts, tail, hrest⟩ := ih
    rw [← append_drop_of_isPrefixOf h]
    exact ⟨_, tail, hrest.mark .method⟩
  | case4 c rest hservice hmethod ih =>
    obtain ⟨cuts, tail, hrest⟩ := ih
    refine hrest.cons (Placeholder.forall_iff.2 ⟨?_, ?_⟩)
    · exact fun hfront => hservice (List.isPrefixOf_iff_prefix.2 hfront)
    · exact fun hfront => hmethod (List.isPrefixOf_iff_prefix.2 hfront)

/-! ### Reading a divided text -/

/-- A character at which no placeholder begins is a piece of its own. -/
theorem pieces_cons {c : Char} {rest : List Char} (h : Plain (c :: rest)) :
    pieces (c :: rest) = .char c :: pieces rest := by
  have hservice : ¬serviceMark.isPrefixOf (c :: rest) = true :=
    fun hfront => h .service (List.isPrefixOf_iff_prefix.1 hfront)
  have hmethod : ¬methodMark.isPrefixOf (c :: rest) = true :=
    fun hfront => h .method (List.isPrefixOf_iff_prefix.1 hfront)
  rw [pieces, if_neg hservice, if_neg hmethod]

/-- A placeholder is one piece. -/
theorem pieces_mark_append (p : Placeholder) (rest : List Char) :
    pieces (p.mark ++ rest) = p.piece :: pieces rest := by
  cases p <;> exact pieces.eq_def _

/-- Characters at which no placeholder begins are pieces of their own. -/
theorem pieces_append {gap rest : List Char}
    (h : ∀ n < gap.length, Plain ((gap ++ rest).drop n)) :
    pieces (gap ++ rest) = gap.map .char ++ pieces rest := by
  induction gap with
  | nil => rfl
  | cons c gap ih =>
    have hc : Plain (c :: (gap ++ rest)) := h 0 (Nat.succ_pos _)
    rw [List.cons_append, pieces_cons hc, ih fun n hn => h (n + 1) (Nat.succ_lt_succ hn)]
    rfl

/-- A text without placeholders has no other pieces than its characters. -/
theorem pieces_of_not_infix {cs : List Char} (h : ∀ p : Placeholder, ¬p.mark <:+: cs) :
    pieces cs = cs.map .char := by
  have hplain : ∀ n < cs.length, Plain ((cs ++ []).drop n) := by
    intro n _ p hfront
    rw [List.append_nil] at hfront
    exact h p (hfront.isInfix.trans (List.drop_suffix n cs).isInfix)
  simpa [pieces] using pieces_append hplain

/-- The pieces of a text are those between which it is cut, and the placeholders. -/
theorem pieces_of_divided {cs tail : List Char} {cuts : List (List Char × Placeholder)}
    (h : Divided cs cuts tail) :
    pieces cs = cuts.flatMap (fun c => c.1.map .char ++ [c.2.piece]) ++ tail.map .char := by
  induction h with
  | tail h => exact pieces_of_not_infix h
  | @cut gap rest tail p cuts hfirst _ ih =>
    rw [List.append_assoc] at hfirst ⊢
    rw [pieces_append hfirst, pieces_mark_append, ih, List.flatMap_cons]
    simp only [List.append_assoc, List.cons_append, List.nil_append]

/-! ### Putting names in -/

theorem fill_piece (p : Placeholder) (service method : String) :
    p.piece.fill service.toList method.toList = (p.name service method).toList := by
  cases p <;> rfl

/-- Characters are filled with themselves. -/
theorem flatMap_fill_char (cs service method : List Char) :
    (cs.map Piece.char).flatMap (Piece.fill service method) = cs := by
  rw [List.flatMap_map]
  exact List.flatMap_singleton' cs

/-- The names go in where a template is cut, and all else stays. -/
theorem toList_fill_of_divided {template : String} {tail : List Char}
    {cuts : List (List Char × Placeholder)} (h : Divided template.toList cuts tail)
    (service method : String) :
    (fill template service method).toList =
      cuts.flatMap (fun c => c.1 ++ (c.2.name service method).toList) ++ tail := by
  unfold fill
  rw [String.toList_ofList, pieces_of_divided h, List.flatMap_append, List.flatMap_assoc,
    flatMap_fill_char]
  simp only [List.flatMap_append, flatMap_fill_char, List.flatMap_singleton, fill_piece]

/-! ### A pass over the percent signs -/

/-- The pass that puts the names in, with `out` written and `rest` to be read, ends with a text. It
goes on to the next percent sign, and there it takes the placeholder that begins, or only the sign
if none does. -/
inductive PassEnds (service method : String) : List Char → List Char → List Char → Prop
  | done {out rest : List Char} (h : '%' ∉ rest) : PassEnds service method out rest (out ++ rest)
  | mark {out gap rest result : List Char} {p : Placeholder} (hgap : '%' ∉ gap)
      (hnext : PassEnds service method (out ++ gap ++ (p.name service method).toList) rest result) :
      PassEnds service method out (gap ++ p.mark ++ rest) result
  | sign {out gap rest result : List Char} (hgap : '%' ∉ gap) (hplain : Plain ('%' :: rest))
      (hnext : PassEnds service method (out ++ gap ++ ['%']) rest result) :
      PassEnds service method out (gap ++ '%' :: rest) result

/-- A placeholder begins with a percent sign. -/
theorem plain_cons_of_ne {c : Char} (h : c ≠ '%') (cs : List Char) : Plain (c :: cs) :=
  Placeholder.forall_iff.2
    ⟨fun hmark => h (List.cons_prefix_cons.1 hmark).1.symm,
      fun hmark => h (List.cons_prefix_cons.1 hmark).1.symm⟩

theorem pieces_append_of_not_mem {gap : List Char} (h : '%' ∉ gap) (rest : List Char) :
    pieces (gap ++ rest) = gap.map .char ++ pieces rest := by
  refine pieces_append fun n hn => ?_
  have hne : gap[n] ≠ '%' := fun heq => h (heq ▸ List.getElem_mem hn)
  rw [List.drop_append_of_le_length (Nat.le_of_lt hn), List.drop_eq_getElem_cons hn]
  exact plain_cons_of_ne hne _

/-- The pass can only end with the pieces of the rest filled. -/
theorem PassEnds.eq {service method : String} {out rest result : List Char}
    (h : PassEnds service method out rest result) :
    result = out ++ (pieces rest).flatMap (Piece.fill service.toList method.toList) := by
  induction h with
  | @done out rest h =>
    have hpieces := pieces_append_of_not_mem h []
    rw [List.append_nil, pieces, List.append_nil] at hpieces
    rw [hpieces, flatMap_fill_char]
  | @mark out gap rest result p hgap _ ih =>
    rw [ih, List.append_assoc gap, pieces_append_of_not_mem hgap, pieces_mark_append,
      List.flatMap_append, flatMap_fill_char, List.flatMap_cons, fill_piece]
    simp only [List.append_assoc]
  | @sign out gap rest result hgap hplain _ ih =>
    rw [ih, pieces_append_of_not_mem hgap, pieces_cons hplain, List.flatMap_append,
      flatMap_fill_char, List.flatMap_cons]
    simp only [List.append_assoc, Piece.fill]

/-- The pass ends: whichever way it goes on, less is left to be read. -/
theorem exists_passEnds (service method : String) (out rest : List Char) :
    ∃ result, PassEnds service method out rest result := by
  induction hlength : rest.length using Nat.strong_induction_on generalizing out rest with
  | _ length ih =>
    subst hlength
    by_cases hmem : '%' ∈ rest
    · obtain ⟨gap, after, rfl, hgap⟩ := List.eq_append_cons_of_mem hmem
      by_cases hplain : Plain ('%' :: after)
      · have hless : after.length < (gap ++ '%' :: after).length := by
          simp only [List.length_append, List.length_cons]
          omega
        obtain ⟨result, hnext⟩ := ih _ hless (out ++ gap ++ ['%']) after rfl
        exact ⟨result, .sign hgap hplain hnext⟩
      · obtain ⟨p, hp⟩ := not_forall.1 hplain
        obtain ⟨rest, hrest⟩ := not_not.1 hp
        have hless : rest.length < (gap ++ '%' :: after).length := by
          have hpos : 0 < p.mark.length := by cases p <;> decide
          rw [← hrest]
          simp only [List.length_append]
          omega
        obtain ⟨result, hnext⟩ := ih _ hless (out ++ gap ++ (p.name service method).toList) _ rfl
        rw [← hrest, ← List.append_assoc]
        exact ⟨result, .mark hgap hnext⟩
    · exact ⟨_, .done hmem⟩

theorem passEnds_iff {service method : String} {out rest result : List Char} :
    PassEnds service method out rest result ↔
      result = out ++ (pieces rest).flatMap (Piece.fill service.toList method.toList) := by
  refine ⟨PassEnds.eq, fun h => ?_⟩
  obtain ⟨result', hends⟩ := exists_passEnds service method out rest
  rwa [h, ← hends.eq]

/-- The placeholders themselves may go in for the placeholders. -/
theorem fill_marks (template : String) : fill template "%service%" "%method%" = template := by
  have hfill : Piece.fill "%service%".toList "%method%".toList = Piece.text := by
    funext p
    cases p <;> rfl
  rw [fill, hfill, flatMap_text_pieces, String.ofList_toList]

/-- **Placeholders are replaced in one pass from the left.** Every template can be cut at its
placeholders, each the first behind the one before, and the names go in at these places, whatever is
in them. The pass from one percent sign to the next ends, and with this text alone. A template
without placeholders stays as it is, and so does one into which the placeholders themselves go
in. -/
theorem fill_divided (template : String) :
    (∃ cuts tail, Divided template.toList cuts tail) ∧
      (∀ cuts tail, Divided template.toList cuts tail → ∀ service method : String,
        (fill template service method).toList =
          cuts.flatMap (fun c => c.1 ++ (c.2.name service method).toList) ++ tail) ∧
      (∀ (service method : String) (result : List Char),
        PassEnds service method [] template.toList result ↔
          result = (fill template service method).toList) ∧
      ((∀ p : Placeholder, ¬p.mark <:+: template.toList) →
        ∀ service method : String, fill template service method = template) ∧
      fill template "%service%" "%method%" = template := by
  refine ⟨exists_divided _, fun cuts tail => toList_fill_of_divided,
    fun service method result => ?_, fun h service method => ?_, fill_marks template⟩
  · rw [passEnds_iff, fill, String.toList_ofList, List.nil_append]
  · exact String.toList_injective (toList_fill_of_divided (.tail h) service method)

/-- Signs that overlap: of the two in front only the second begins a placeholder, the one behind it
begins none, and the next one begins a word that is broken off. The name that goes in first is not
read as a placeholder. -/
theorem fill_overlapping :
    Divided "%%service%method%servic%method%".toList
        [(['%'], .service), ("method%servic".toList, .method)] [] ∧
      fill "%%service%method%servic%method%" "%method%" "Get" = "%%method%method%servicGet" ∧
      (∀ p : Placeholder, ¬p.mark <:+: "100% of %servic%".toList) ∧
      fill "100% of %servic%" "Users" "Get" = "100% of %servic%" := by
  have hdivided : Divided "%%service%method%servic%method%".toList
      [(['%'], .service), ("method%servic".toList, .method)] [] := by
    have htext : "%%service%method%servic%method%".toList = ['%'] ++ Placeholder.service.mark ++
        ("method%servic".toList ++ Placeholder.method.mark ++ []) := by decide +kernel
    rw [htext]
    exact .cut (by decide) (.cut (by decide) (.tail (by decide)))
  have hplain : ∀ p : Placeholder, ¬p.mark <:+: "100% of %servic%".toList := by decide +kernel
  obtain ⟨-, hfill, -⟩ := fill_divided "%%service%method%servic%method%"
  exact ⟨hdivided, String.toList_injective (hfill _ _ hdivided "%method%" "Get"), hplain,
    (fill_divided "100% of %servic%").2.2.2.1 hplain "Users" "Get"⟩

end Redaction.Template
