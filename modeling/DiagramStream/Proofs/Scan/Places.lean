import DiagramStream.Proofs.Scan.Tokens
import DiagramStream.Proofs.Text.Places
import DiagramStream.Statement

/-!
Where the statements of a text stand. Main statements: the tokens of a text stand one behind the other; if each of them
goes on with the statement in hand or ends it, then they fall into statements and separators; and where no statement
begins like something that is passed over, each stands at its first token, and its place leads back to that.
-/

namespace DiagramStream.Scan
open Text

variable {κ σ : Type} {derives : List (Token κ) → Statement → Prop} {separates : κ → Bool}

-- No token, or one of a certain sort.
inductive Optional (allows : κ → Bool) : List (Token κ) → Prop where
  | none : Optional allows []
  | some {token : Token κ} : allows token.kind = true → Optional allows [token]

theorem Optional.one [BEq κ] [LawfulBEq κ] {token : Token κ} {kind : κ} (same : token.kind = kind) :
    Optional (· == kind) [token] := .some (beq_iff_eq.2 same)

-- Tokens that fall into statements and separators, with the first token of each statement.
inductive Laid (derives : List (Token κ) → Statement → Prop) (separates : κ → Bool) :
    List (Token κ) → List (Token κ × Statement) → Prop where
  | nil : Laid derives separates [] []
  | separator {token : Token κ} {tokens : List (Token κ)} {firsts : List (Token κ × Statement)} :
      separates token.kind = true → Laid derives separates tokens firsts → Laid derives separates (token :: tokens) firsts
  | statement {first : Token κ} {rest tokens : List (Token κ)} {statement : Statement}
      {firsts : List (Token κ × Statement)} : derives (first :: rest) statement → Laid derives separates tokens firsts →
      Laid derives separates (first :: (rest ++ tokens)) ((first, statement) :: firsts)

namespace Laid

variable {tokens others : List (Token κ)} {firsts laterFirsts : List (Token κ × Statement)}

theorem append (laid : Laid derives separates tokens firsts) (later : Laid derives separates others laterFirsts) :
    Laid derives separates (tokens ++ others) (firsts ++ laterFirsts) := by
  induction laid with
  | nil => exact later
  | separator separating _ ih => exact .separator separating ih
  | statement derived _ ih =>
    rw [List.cons_append, List.append_assoc]
    exact .statement derived ih

theorem sublist (laid : Laid derives separates tokens firsts) : (firsts.map Prod.fst).Sublist tokens := by
  induction laid with
  | nil => exact .refl _
  | separator _ _ ih => exact ih.cons _
  | statement _ _ ih => exact (ih.trans (List.sublist_append_right _ _)).cons_cons _

theorem derived (laid : Laid derives separates tokens firsts) :
    ∀ first ∈ firsts, ∃ rest, derives (first.1 :: rest) first.2 := by
  induction laid with
  | nil => exact List.forall_mem_nil _
  | separator _ _ ih => exact ih
  | statement derived _ ih => exact List.forall_mem_cons.2 ⟨⟨_, derived⟩, ih⟩

end Laid

def Token.placed (first : Token κ × Statement) : Placed := ⟨first.1.position, first.2⟩

section
variable {fresh freshLater : Prop} {holds holdsLater : List (Token κ) → Prop} {place placeLater : Position}
  {tokens : List (Token κ)} {token : Token κ}

-- The tokens of a statement in hand, which stands at the first of them. Only where none has begun there are no tokens.
def Held (fresh : Prop) (holds : List (Token κ) → Prop) (place : Position) : List (Token κ) → Prop
  | [] => fresh
  | first :: rest => place = first.position ∧ holds (first :: rest)

theorem Held.hand (held : Held fresh holds place tokens) (empty : fresh → ∀ tokens, holds tokens ↔ tokens = []) :
    holds tokens := by
  cases tokens with
  | nil => exact (empty held []).2 rfl
  | cons first rest => exact held.2

-- It moves to the next token if that is its first one, and stays where it is behind that.
theorem Held.snoc (held : Held fresh holds place tokens) (empty : fresh → ∀ tokens, holds tokens ↔ tokens = [])
    (goes : holdsLater (tokens ++ [token])) (moved : fresh → placeLater = token.position)
    (stayed : ¬ fresh → placeLater = place) : Held freshLater holdsLater placeLater (tokens ++ [token]) := by
  cases tokens with
  | nil => exact ⟨moved held, goes⟩
  | cons first rest =>
    obtain ⟨here, hand⟩ := held
    exact ⟨(stayed fun new => nomatch (empty new _).1 hand).trans here, goes⟩

end

namespace Grammar

variable {ρ : Type} {state : σ} {cursor : Cursor}

-- Tokens one behind the other

section
variable {grammar : Grammar κ σ ρ} {result : ρ}

-- What stands at a later place, or behind it, stands behind this one.
theorem skip_behind {tokens : List (Token κ)} {count : Nat} (more : cursor.rest ≠ [])
    (behind : ∀ token ∈ tokens, token.position = (cursor.skip (count + 1)).position ∨
      (cursor.skip (count + 1)).position < token.position) : ∀ token ∈ tokens, cursor.position < token.position := by
  have further : cursor.position < (cursor.skip (count + 1)).position := Position.lt_advance _ (by simpa using more)
  intro token listed
  rcases behind token listed with same | later
  · rwa [same]
  · exact Position.lt_trans further later

theorem Reads.tokens_follow (reads : grammar.Reads state cursor result) :
    (∀ token ∈ grammar.tokens state cursor, token.position = cursor.position ∨ cursor.position < token.position) ∧
      (grammar.tokens state cursor).Pairwise fun one other => one.position < other.position := by
  induction reads with
  | done ended =>
    rw [tokens_done ended]
    exact ⟨List.forall_mem_nil _, .nil⟩
  | skip more found ignored _ ih =>
    rw [tokens_skip more found ignored]
    exact ⟨fun token listed => .inr (skip_behind more ih.1 token listed), ih.2⟩
  | take more found seen shifted _ ih =>
    rw [tokens_take more found seen shifted]
    have behind := skip_behind more ih.1
    exact ⟨List.forall_mem_cons.2 ⟨.inl rfl, fun token listed => .inr (behind token listed)⟩, .cons behind ih.2⟩

-- A token of this kind begins with a character to be seen, and nothing that is passed over begins there.
def Visible (grammar : Grammar κ σ ρ) (kind : κ) : Prop :=
  ∀ rule c text, (kind, rule) ∈ grammar.rules → rule (c :: text) ≠ 0 → isBlank c = false ∧
    ∀ entry ∈ grammar.rules, grammar.ignored entry.1 = true → entry.2 (c :: text) = 0

-- What stands at the place of a token, read back in the text.
structure Shows (grammar : Grammar κ σ ρ) (text : List Char) (token : Token κ) : Prop where
  -- All that stands before the token has been read, so it is not within anything that is passed over.
  stands : ∃ gone rest before later, grammar.Stands grammar.start (Cursor.start text) token gone rest before later
  character : ∃ c, token.text.head? = some c ∧ characterAt? text token.position = some c ∧ isBlank c = false
  passed : ∀ entry ∈ grammar.rules, grammar.ignored entry.1 = true → entry.2 (text.drop token.offset) = 0

theorem Stands.shows {text gone rest : List Char} {token : Token κ} {before later : σ} (visible : grammar.Visible token.kind)
    (stands : grammar.Stands grammar.start (Cursor.start text) token gone rest before later) : grammar.Shows text token := by
  obtain ⟨count, length, found⟩ := stands.found
  obtain ⟨rule, listed, taken⟩ := firstMatch_rule found
  obtain ⟨c, word, spelled⟩ : ∃ c word, token.text = c :: word := by
    refine List.exists_cons_of_ne_nil fun empty => ?_
    rw [empty] at length
    cases length
  have applies : rule (c :: (word ++ rest)) ≠ 0 := by
    rw [spelled] at taken
    exact taken ▸ Nat.succ_ne_zero count
  obtain ⟨seen, silent⟩ := visible rule c (word ++ rest) listed applies
  have whole : text = gone ++ c :: (word ++ rest) := by
    have cut : text = gone ++ (token.text ++ rest) := stands.text
    rwa [spelled] at cut
  have offset : token.offset = gone.length := stands.offset.trans (Nat.zero_add _)
  refine ⟨⟨gone, rest, before, later, stands⟩, ⟨c, by rw [spelled]; rfl, ?_, seen⟩, ?_⟩
  · rw [stands.place, whole]
    refine characterAt?_advance ?_ gone _
    rintro rfl
    cases seen
  · rw [offset, whole, List.drop_left]
    exact silent

end

-- Statements of a text

section
variable {grammar : Grammar κ σ (List Placed)} {result : List Placed}

-- `holds` tells the tokens of the statement in hand. One more token goes on with it, or it is done with before.
structure Lays (grammar : Grammar κ σ (List Placed)) (derives : List (Token κ) → Statement → Prop) (separates : κ → Bool)
    (holds : σ → List (Token κ) → Prop) (done : σ → List Placed) : Prop where
  start : holds grammar.start [] ∧ done grammar.start = []
  shift : ∀ {state later hand token}, holds state hand → grammar.shift state token = some later →
    ∃ gone kept firsts, hand ++ [token] = gone ++ kept ∧ Laid derives separates gone firsts ∧
      done later = done state ++ firsts.map Token.placed ∧ holds later kept
  finish : ∀ {state hand result}, holds state hand → grammar.finish state = some result →
    ∃ firsts, Laid derives separates hand firsts ∧ result = done state ++ firsts.map Token.placed

theorem Reads.laid {holds : σ → List (Token κ) → Prop} {done : σ → List Placed}
    (lays : grammar.Lays derives separates holds done) (reads : grammar.Reads state cursor result)
    {hand : List (Token κ)} (held : holds state hand) :
    ∃ firsts, Laid derives separates (hand ++ grammar.tokens state cursor) firsts ∧
      result = done state ++ firsts.map Token.placed := by
  induction reads generalizing hand with
  | done ended finished =>
    rw [tokens_done ended, List.append_nil]
    exact lays.finish held finished
  | skip more found ignored _ ih =>
    rw [tokens_skip more found ignored]
    exact ih held
  | take more found seen shifted _ ih =>
    rw [tokens_take more found seen shifted, List.append_cons]
    obtain ⟨gone, kept, firsts, cut, laid, added, held⟩ := lays.shift held shifted
    obtain ⟨others, later, whole⟩ := ih held
    refine ⟨firsts ++ others, ?_, ?_⟩
    · rw [cut, List.append_assoc]
      exact laid.append later
    · rw [whole, added, List.map_append, List.append_assoc]

-- What the places of the statements of a text tell.
structure Places (grammar : Grammar κ σ (List Placed)) (derives : List (Token κ) → Statement → Prop)
    (separates : κ → Bool) (text : List Char) (statements : List Placed) : Prop where
  increasing : statements.Pairwise fun one other => one.position < other.position
  counted : ∀ placed ∈ statements, placed.position.Counted
  laid : ∃ firsts, statements = firsts.map Token.placed ∧
    Laid derives separates (grammar.tokens grammar.start (Cursor.start text)) firsts ∧
    ∀ first ∈ firsts, grammar.Shows text first.1

theorem Reads.places {holds : σ → List (Token κ) → Prop} {done : σ → List Placed} {text : List Char} (fits : grammar.Fits)
    (lays : grammar.Lays derives separates holds done)
    (visible : ∀ {first rest statement}, grammar.ignored first.kind = false → derives (first :: rest) statement →
      grammar.Visible first.kind)
    (reads : grammar.Reads grammar.start (Cursor.start text) result) : grammar.Places derives separates text result := by
  obtain ⟨firsts, laid, whole⟩ := reads.laid lays lays.start.1
  rw [lays.start.2, List.nil_append] at whole
  have listed : ∀ first ∈ firsts, first.1 ∈ grammar.tokens grammar.start (Cursor.start text) := by
    intro first member
    exact laid.sublist.subset (List.mem_map_of_mem member)
  have shows : ∀ first ∈ firsts, grammar.Shows text first.1 := by
    intro first member
    obtain ⟨rest, derived⟩ := laid.derived first member
    obtain ⟨gone, rest, before, later, stands⟩ := reads.stands fits (listed first member)
    exact stands.shows (visible stands.seen derived)
  subst whole
  refine ⟨?_, ?_, firsts, rfl, laid, shows⟩
  · have ordered := reads.tokens_follow.2.sublist laid.sublist
    rw [List.pairwise_map] at ordered ⊢
    exact ordered
  · refine List.forall_mem_map.2 fun first member => ?_
    obtain ⟨gone, rest, before, later, stands⟩ := (shows first member).stands
    rw [Token.placed, stands.place]
    exact Position.start_counted.advance gone

end

end Grammar
end DiagramStream.Scan
