import DiagramStream.Proofs.Dot.Places
import DiagramStream.Proofs.Sequence.Places

/-!
Where the statements of a text stand. Main statement: the statements of a text are placed in its order, each of them at
its first token, and line and column lead back to the character that this begins with.
-/

namespace DiagramStream

-- What parts statements without being one: semicolons in graphs, the ends of lines in sequence diagrams. The latter are
-- read after their line ends are made alike.
def Conversion.Places (text : String) (statements : List Placed) : Format → Prop
  | .dot => Dot.grammar.Places Dot.Derives (· == .semicolon) text.toList statements
  | .sequence => Sequence.grammar.Places Sequence.Derives (· == .lineEnd) (Sequence.prepare text.toList) statements

theorem Conversion.parse_places {text : String} {format : Format} {document : Document}
    (parsed : Conversion.parse text format = .ok document) : Conversion.Places text document.statements format := by
  cases format with
  | dot => exact Dot.parse_located parsed
  | sequence => exact Sequence.parse_located parsed

-- Comments, empty lines and texts over several lines before and between the statements of a graph; and of a sequence
-- diagram markers, line ends of all sorts, a note of several lines and a comment of two.
theorem Conversion.parse_places_mixed :
    let graph := "// top\n\n/* two\nlines */ strict graph \x7b\r\n a [l=\"x\ny\"];; # off\n#aside\n" ++
      "\x7d -- \x7b b \x7d k = <\n<v>> // end\n c"
    let lines := "@startuml\r\n\r\n  A -> \"b c\" : hi\r\tnote over A,B\n text\n\n @x\nend note\n" ++
      "/\x27 two\nlines \x27/ \n@startuml aside\nend\r@enduml"
    ∃ one two, Conversion.parse graph .dot = .ok one ∧ Conversion.Places graph one.statements .dot ∧
      one.statements.map Placed.position = [⟨4, 10⟩, ⟨5, 2⟩, ⟨8, 1⟩, ⟨8, 12⟩, ⟨10, 2⟩] ∧
      Conversion.parse lines .sequence = .ok two ∧ Conversion.Places lines two.statements .sequence ∧
      two.statements.map Placed.position = [⟨3, 3⟩, ⟨4, 2⟩, ⟨9, 1⟩, ⟨12, 1⟩] := by
  intro graph lines
  have first : ((Conversion.parse graph .dot).toOption.map fun one => one.statements.map Placed.position) =
      some [⟨4, 10⟩, ⟨5, 2⟩, ⟨8, 1⟩, ⟨8, 12⟩, ⟨10, 2⟩] := by decide +kernel
  have second : ((Conversion.parse lines .sequence).toOption.map fun two => two.statements.map Placed.position) =
      some [⟨3, 3⟩, ⟨4, 2⟩, ⟨9, 1⟩, ⟨12, 1⟩] := by decide +kernel
  obtain ⟨one, read, five⟩ := Option.map_eq_some_iff.1 first
  obtain ⟨two, said, four⟩ := Option.map_eq_some_iff.1 second
  have parsed := Scan.ok_of_toOption read
  have spoken := Scan.ok_of_toOption said
  exact ⟨one, two, parsed, Conversion.parse_places parsed, five, spoken, Conversion.parse_places spoken, four⟩

end DiagramStream
