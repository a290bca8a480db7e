import DiagramStream.Proofs.Dot.Shape
import DiagramStream.Proofs.Sequence.Shape

/-!
What may be counted on where a text is told. Main statement: the statements of a text are those of its notation, each
of the shape that its notation gives it.
-/

namespace DiagramStream

-- Statements of the two notations do not mix.
def Document.Shaped (document : Document) : Prop :=
  match document.format with
  | .dot => Dot.ShapedGraph (document.statements.map Placed.statement)
  | .sequence => ∀ placed ∈ document.statements, Sequence.Sayable placed.statement

theorem Conversion.parse_fits {text : String} {format : Format} {document : Document}
    (parsed : Conversion.parse text format = .ok document) : document.format = format ∧ document.Shaped := by
  unfold Document.Shaped
  cases format with
  | dot =>
    obtain ⟨same, graph⟩ := Dot.parse_shaped parsed
    rw [same]
    exact ⟨rfl, graph⟩
  | sequence =>
    obtain ⟨same, lines⟩ := Sequence.parse_sayable parsed
    rw [same]
    exact ⟨rfl, lines⟩

-- A chain that ends in a group, one that hangs on a brace, and attributes at both; and on lines of their own a
-- declaration with all its parts, a marked message, a note over two and a block with blanks around its condition.
theorem Conversion.parse_fits_mixed :
    let graph := "strict graph \x7b a -- \x7b b c; \x7d [w=1 k] \x7d -> d:n -- e [w=2] edge [] k = v"
    let lines := "actor A as \"b\" <<s>> #red\r\nA ->> B ++ : hi \nnote over A, B : n\nalt   ok \nend"
    ∃ one two, Conversion.parse graph .dot = .ok one ∧ one.Shaped ∧ one.statements.length = 5 ∧
      Conversion.parse lines .sequence = .ok two ∧ two.Shaped ∧ two.statements.length = 5 := by
  intro graph lines
  have first : ((Conversion.parse graph .dot).toOption.map fun one => one.statements.length) = some 5 := by
    decide +kernel
  have second : ((Conversion.parse lines .sequence).toOption.map fun two => two.statements.length) = some 5 := by
    decide +kernel
  obtain ⟨one, read, five⟩ := Option.map_eq_some_iff.1 first
  obtain ⟨two, said, also⟩ := Option.map_eq_some_iff.1 second
  have parsed := Scan.ok_of_toOption read
  have spoken := Scan.ok_of_toOption said
  exact ⟨one, two, parsed, (Conversion.parse_fits parsed).2, five, spoken, (Conversion.parse_fits spoken).2, also⟩

end DiagramStream
