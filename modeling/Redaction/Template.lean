/-!
# Message templates

A template is a text with placeholders for the name of a service and of a method. It is cut into
pieces in one pass from the left, so a name that is put in is never searched for placeholders.

* `flatMap_text_pieces` says that nothing of a template is lost.
-/

namespace Redaction.Template

/-- The placeholder of the service's name. -/
def serviceMark : List Char := ['%', 's', 'e', 'r', 'v', 'i', 'c', 'e', '%']

/-- The placeholder of the method's name. -/
def methodMark : List Char := ['%', 'm', 'e', 't', 'h', 'o', 'd', '%']

/-- A piece of a template. -/
inductive Piece where
  | char (c : Char)
  | service
  | method
deriving DecidableEq

/-- The text of a piece. -/
def Piece.text : Piece → List Char
  | char c => [c]
  | service => serviceMark
  | method => methodMark

/-- The text of a piece with the names in place of the placeholders. -/
def Piece.fill (service method : List Char) : Piece → List Char
  | char c => [c]
  | .service => service
  | .method => method

/-- The pieces of a template, each placeholder as far left as it can begin. -/
def pieces : List Char → List Piece
  | [] => []
  | c :: rest =>
    if serviceMark.isPrefixOf (c :: rest) then
      .service :: pieces ((c :: rest).drop serviceMark.length)
    else if methodMark.isPrefixOf (c :: rest) then
      .method :: pieces ((c :: rest).drop methodMark.length)
    else .char c :: pieces rest
termination_by cs => cs.length
decreasing_by
  · simp only [List.length_drop, List.length_cons, serviceMark, List.length_nil]; omega
  · simp only [List.length_drop, List.length_cons, methodMark, List.length_nil]; omega
  · simp

/-- The template with the names in place of the placeholders. -/
def fill (template service method : String) : String :=
  String.ofList ((pieces template.toList).flatMap (Piece.fill service.toList method.toList))

example : fill "%service%.%method%" "%method%" "M" = "%method%.M" := by decide +kernel

theorem append_drop_of_isPrefixOf {mark cs : List Char} (h : mark.isPrefixOf cs = true) :
    mark ++ cs.drop mark.length = cs := by
  obtain ⟨rest, rfl⟩ := List.isPrefixOf_iff_prefix.1 h
  simp

/-- The pieces of a template make up the template. -/
theorem flatMap_text_pieces (cs : List Char) : (pieces cs).flatMap Piece.text = cs := by
  fun_induction pieces cs with
  | case1 => rfl
  | case2 c rest h ih =>
    rw [List.flatMap_cons, ih]
    exact append_drop_of_isPrefixOf h
  | case3 c rest _ h ih =>
    rw [List.flatMap_cons, ih]
    exact append_drop_of_isPrefixOf h
  | case4 c rest _ _ ih => rw [List.flatMap_cons, ih]; rfl

end Redaction.Template
