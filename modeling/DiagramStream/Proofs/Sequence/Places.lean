import DiagramStream.Proofs.Parsing
import DiagramStream.Proofs.Scan.Behind
import DiagramStream.Proofs.Sequence.Canonical
import DiagramStream.Proofs.Sequence.Derivation

/-!
Where the statements of sequence texts stand. Main statement: each stands at the first of its tokens, which is neither a
blank, nor the end of a line, nor a part of a marker, and further on than all statements before it.
-/

namespace DiagramStream.Sequence
open Text Scan

variable {state later : State} {stage : Stage} {tokens : List (Token Kind)} {token : Token Kind} {statement : Statement}
  {c : Char} {text : List Char} {kind : Kind}

-- What a statement begins with

def Kind.opens (kind : Kind) : Bool := isStatementStart kind && kind != .lineEnd

theorem nameOf_opens {name : Name} (named : nameOf? token = some name) : token.kind.opens = true := by
  unfold nameOf? at named
  split at named
  · rename_i kind
    rw [kind]
    rfl
  · rename_i kind
    rw [kind]
    rfl
  · cases named

theorem Derives.opening (derives : Derives tokens statement) :
    ∃ first rest, tokens = first :: rest ∧ first.kind.opens = true := by
  cases derives with
  | message named => exact ⟨_, _, rfl, nameOf_opens named⟩
  | declaration kind | activation kind | deactivation kind | destruction kind | note kind | noteLines kind
  | separator kind | delay kind | spacer kind | blockOpen kind | blockElse kind | blockEnd kind | comment kind
  | blockComment kind =>
    exact ⟨_, _, rfl, by rw [kind]; rfl⟩

-- Neither a blank nor the sign that markers begin with.
def Seen (c : Char) : Prop := isBlank c = false ∧ c ≠ '@'

def BeginsSeen (rule : Rule) : Prop := ∀ {c text}, rule (c :: text) ≠ 0 → Seen c

theorem isWord_seen (letter : isWord c = true) : Seen c := by
  constructor
  · refine Bool.eq_false_iff.2 fun blank => ?_
    rw [isBlank_not_isWord blank] at letter
    cases letter
  · rintro rfl
    cases letter

theorem keywords_seen {words : List String} (small : (words.all fun word => word.toList.head?.all isWord) = true) :
    BeginsSeen (keywords words) := by
  intro c text applies
  obtain ⟨word, listed, taken⟩ := keywords_take applies
  obtain ⟨count, length⟩ := Nat.exists_eq_succ_of_ne_zero applies
  rw [length, List.take_succ_cons] at taken
  have letter := List.all_eq_true.1 small word listed
  rw [← taken] at letter
  exact isWord_seen letter

theorem line_seen {mark : Char} {word : List Char} (seen : isBlank mark = false) (plain : mark ≠ '@') :
    BeginsSeen (Rule.line (mark :: word)) := by
  intro c text applies
  rw [Rule.prefix_opens (Rule.line_prefix applies)]
  exact ⟨seen, plain⟩

theorem enclosed_seen {mark : Char} {opener closer : List Char} (seen : isBlank mark = false) (plain : mark ≠ '@') :
    BeginsSeen (Rule.enclosed (mark :: opener) closer) := by
  intro c text applies
  rw [Rule.prefix_opens (Rule.enclosed_prefix applies)]
  exact ⟨seen, plain⟩

theorem word_seen : BeginsSeen Rule.word := by
  intro c text applies
  refine isWord_seen (Classical.byContradiction fun other => applies ?_)
  exact if_neg (by simp [isWordStart, other])

theorem quotedRule_seen : BeginsSeen quotedRule := by
  intro c text applies
  unfold quotedRule at applies
  split at applies
  · rename_i same
    rw [(List.cons.inj same).1]
    exact ⟨rfl, by decide⟩
  · exact absurd rfl applies

theorem opens_seen : ∀ entry ∈ rules, entry.1.opens = true → BeginsSeen entry.2 := by
  have unopened {kind : Kind} {rule : Rule} (inside : kind.opens = false) (opens : kind.opens = true) :
      BeginsSeen rule := by
    rw [inside] at opens
    cases opens
  simp only [rules, List.forall_mem_cons]
  exact ⟨unopened rfl, unopened rfl, fun _ => keywords_seen rfl, fun _ => keywords_seen rfl, fun _ => keywords_seen rfl,
    fun _ => keywords_seen rfl, fun _ => keywords_seen rfl, unopened rfl, fun _ => keywords_seen rfl,
    fun _ => keywords_seen rfl, unopened rfl, fun _ => keywords_seen rfl, unopened rfl, unopened rfl, unopened rfl,
    unopened rfl, unopened rfl, fun _ => enclosed_seen rfl (by decide), unopened rfl,
    fun _ => line_seen rfl (by decide), fun _ => line_seen rfl (by decide), fun _ => word_seen, unopened rfl,
    unopened rfl, fun _ => quotedRule_seen, fun _ => line_seen rfl (by decide), fun _ => line_seen rfl (by decide),
    unopened rfl, unopened rfl, unopened rfl, List.forall_mem_nil _⟩

theorem visible (opens : kind.opens = true) : grammar.Visible kind := by
  intro rule c text listed applies
  obtain ⟨seen, other⟩ := opens_seen _ listed opens applies
  refine ⟨seen, ?_⟩
  intro entry hidden ignored
  rcases rules_ignored entry hidden ignored with rfl | rfl
  · show ((c :: text).takeWhile isSpacing).length = 0
    rw [List.takeWhile_cons_of_neg (by simp [isSpacing_seen seen])]
    rfl
  · refine Classical.byContradiction fun applies => ?_
    obtain ⟨rule, marker, applies, -⟩ := Rule.oneOf_rule applies
    rcases List.mem_cons.1 marker with rfl | marker
    · exact other (Rule.prefix_opens (Rule.line_prefix applies))
    · cases List.mem_singleton.1 marker
      exact other (Rule.prefix_opens (Rule.line_prefix applies))

-- The statement in hand

def State.Holds (state : State) : List (Token Kind) → Prop := Held (state.stage = .ready) state.stage.Holds state.position

theorem Stage.ready_holds (ready : stage = .ready) (tokens : List (Token Kind)) : stage.Holds tokens ↔ tokens = [] := by
  subst ready
  rfl

-- The end of a line is behind all tokens of its statement.
theorem State.endLine_laid (held : state.Holds tokens) (kind : token.kind = .lineEnd)
    (ended : state.endLine = some later) :
    ∃ firsts, Laid Derives (· == .lineEnd) (tokens ++ [token]) firsts ∧
      later.done = state.done ++ firsts.map Token.placed ∧ later.stage = .ready := by
  obtain ⟨last, whole, rfl⟩ := Option.map_eq_some_iff.1 ended
  have hand := Held.hand held Stage.ready_holds
  have alone : Laid Derives (· == .lineEnd) [token] [] := .separator (beq_iff_eq.2 kind) .nil
  rcases Stage.complete_derives hand whole with ⟨rfl, ready⟩ | ⟨statement, rfl, derives⟩
  · obtain rfl := (Stage.ready_holds ready _).1 hand
    exact ⟨[], alone, (List.append_nil _).symm, ready⟩
  · obtain ⟨first, rest, rfl, -⟩ := derives.opening
    refine ⟨[(first, statement)], .statement derives alone, ?_, rfl⟩
    show state.done ++ [⟨state.position, statement⟩] = state.done ++ [⟨first.position, statement⟩]
    rw [held.1]

theorem lays : grammar.Lays Derives (· == .lineEnd) State.Holds State.done where
  start := ⟨rfl, rfl⟩
  shift held shifted := by
    rcases State.shift_place shifted with ⟨followed, kept, fresh, place⟩ | ⟨kind, ended⟩
    · refine ⟨[], _, [], rfl, .nil, by rw [kept]; exact (List.append_nil _).symm, ?_⟩
      exact Held.snoc held Stage.ready_holds (Stage.follow_holds (Held.hand held Stage.ready_holds) followed) fresh place
    · obtain ⟨firsts, laid, added, ready⟩ := State.endLine_laid held kind ended
      exact ⟨_, [], firsts, (List.append_nil _).symm, laid, added, ready⟩
  finish {state hand _} held ended := by
    have finished : grammar.finish state = State.finish state := rfl
    rw [finished, State.finish] at ended
    split at ended
    · rename_i ready
      cases ended
      obtain rfl := (Stage.ready_holds ready _).1 (Held.hand held Stage.ready_holds)
      exact ⟨[], .nil, (List.append_nil _).symm⟩
    · cases ended

theorem parse_located {text : String} {document : Document} (parsed : parse text = .ok document) :
    grammar.Places Derives (· == .lineEnd) (prepare text.toList) document.statements := by
  obtain ⟨-, reads⟩ := parse_eq_ok.1 parsed
  refine reads.places (fun _ _ _ _ found => match_fits found) lays ?_
  intro first rest statement _ derives
  obtain ⟨_, _, ⟨⟩, opens⟩ := derives.opening
  exact visible opens

end DiagramStream.Sequence
