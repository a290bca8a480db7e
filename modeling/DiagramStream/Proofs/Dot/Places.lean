import DiagramStream.Proofs.Dot.Derivation
import DiagramStream.Proofs.Dot.Filler

/-!
Where the statements of graph texts stand. Main statement: each stands at the first of its tokens, which is neither a
blank nor a part of a comment, and further on than all statements before it.
-/

namespace DiagramStream.Dot
open Text Scan

variable {state later : State} {stage : Stage} {tokens : List (Token Kind)} {token : Token Kind} {c : Char} {kind other : Kind}

-- The statement in hand

def State.Holds (state : State) : List (Token Kind) → Prop := Held (state.stage = .start) state.stage.Holds state.position

theorem Stage.start_holds (start : stage = .start) (tokens : List (Token Kind)) : stage.Holds tokens ↔ tokens = [] := by
  subst start
  rfl

theorem State.complete_laid {result : List Placed} (held : state.Holds tokens) (whole : state.complete? = some result) :
    ∃ firsts, Laid Derives (· == .semicolon) tokens firsts ∧ result = state.done ++ firsts.map Token.placed := by
  obtain ⟨last, ended, rfl⟩ := Option.map_eq_some_iff.1 whole
  have hand := Held.hand held Stage.start_holds
  rcases Stage.complete_derives hand ended with ⟨rfl, semicolon, kind, rfl⟩ | ⟨statement, rfl, derives⟩
  · exact ⟨[], .separator (beq_iff_eq.2 kind) .nil, (List.append_nil _).symm⟩
  · obtain ⟨first, rest, rfl⟩ := List.exists_cons_of_ne_nil derives.ne_nil
    refine ⟨[(first, statement)], by simpa using Laid.statement derives .nil, ?_⟩
    show state.done ++ [⟨state.position, statement⟩] = state.done ++ [⟨first.position, statement⟩]
    rw [held.1]

theorem lays : grammar.Lays Derives (· == .semicolon) State.Holds State.done where
  start := ⟨rfl, rfl⟩
  shift held shifted := by
    rcases State.shift_place shifted with ⟨followed, kept, fresh, place⟩ | ⟨ended, begun, place⟩
    · refine ⟨[], _, [], rfl, .nil, by rw [kept]; exact (List.append_nil _).symm, ?_⟩
      exact Held.snoc held Stage.start_holds (Stage.follow_holds (Held.hand held Stage.start_holds) followed) fresh place
    · obtain ⟨firsts, laid, added⟩ := State.complete_laid held ended
      exact ⟨_, [_], firsts, rfl, laid, added, place, Stage.begin_holds begun⟩
  finish held whole := State.complete_laid held whole

-- What is passed over

-- Of all blanks only those that are passed over begin a token.
theorem isBlank_family? {family : Family} (blank : isBlank c = true) (known : family? c = some family) :
    family = .alone .blank := by
  have letter : isWord c = false := isBlank_not_isWord blank
  have digit : isDecimal c = false := by
    refine Bool.eq_false_iff.2 fun digit => ?_
    rw [isDecimal_isWord digit] at letter
    cases letter
  have not_ (sign : Char) (seen : isBlank sign = false) : c ≠ sign := by
    rintro rfl
    rw [seen] at blank
    cases blank
  unfold family? at known
  rw [if_neg (by simp [isWordStart, letter]), if_neg (by simp [isFigure, digit, not_ '.' rfl, not_ '-' rfl])] at known
  split at known
  · cases known
    rfl
  · rw [if_neg (by simp [not_ '/' rfl])] at known
    obtain ⟨kind, sign, -⟩ := Option.map_eq_some_iff.1 known
    obtain ⟨before, after, split, -⟩ := List.lookup_eq_some_iff.1 sign
    have seen : ∀ entry ∈ signs, isBlank entry.1 = false := by decide +kernel
    exact absurd rfl (not_ c (seen (c, kind) (split ▸ List.mem_append_right _ List.mem_cons_self)))

theorem seen_apart (seen : kind.ignored = false) (hidden : other.ignored = true) : kind.family ≠ other.family := by
  intro same
  cases other <;> cases hidden
  case blank =>
    cases alone_family same
    cases seen
  case hashComment =>
    cases alone_family same
    cases seen
  case blockComment | lineComment =>
    rcases remark_family same with rfl | rfl <;> cases seen

theorem visible (seen : kind.ignored = false) : grammar.Visible kind := by
  intro rule c text listed applies
  obtain rfl := rule_listed listed
  have family : family? c = some kind.family := family?_rule applies
  constructor
  · refine Bool.eq_false_iff.2 fun blank => ?_
    exact seen_apart seen (show Kind.blank.ignored = true from rfl) (isBlank_family? blank family)
  · intro entry listed hidden
    rw [rule_listed listed]
    refine Classical.byContradiction fun applies => ?_
    exact seen_apart seen hidden (Option.some.inj (family.symm.trans (family?_rule applies)))

theorem parse_located {text : String} {document : Document} (parsed : parse text = .ok document) :
    grammar.Places Derives (· == .semicolon) text.toList document.statements := by
  obtain ⟨result, rfl, reads⟩ := parse_ok parsed
  exact reads.places fits lays fun seen _ => visible seen

end DiagramStream.Dot
