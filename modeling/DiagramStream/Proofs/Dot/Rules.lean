import DiagramStream.Proofs.Detection
import DiagramStream.Proofs.Scan.Behind
import DiagramStream.Proofs.Scan.Tokens

/-!
What the rules of graph texts take, by what stands behind it. Main statements: the first character of a piece tells
which rules there are to choose from; and what they take of it hangs on the piece and on the character behind it alone,
and for a token not even on that, if it is a blank or opens a comment.
-/

namespace DiagramStream.Text

variable {c : Char}

-- The letters that keywords are made of.
def alphabet : List Char := "abcdefghijklmnopqrstuvwxyz".toList

theorem alphabet_isWordStart : ∀ c ∈ alphabet, isWordStart c = true := List.all_eq_true.1 (by decide +kernel)

theorem mem_alphabet {word : List Char} (small : word.all alphabet.contains = true) : ∀ c ∈ word, c ∈ alphabet :=
  fun c member => List.contains_iff_mem.1 (List.all_eq_true.1 small c member)

theorem alphabet_isWord {word : List Char} (small : word.all alphabet.contains = true) : ∀ c ∈ word, isWord c = true :=
  fun c member => (Bool.and_eq_true_iff.1 (alphabet_isWordStart c (mem_alphabet small c member))).1

-- Every form of a small letter begins a name.
theorem isWordStart_of_folded (letter : foldLetter c ∈ alphabet) : isWordStart c = true := by
  unfold foldLetter at letter
  split at letter
  · rename_i long
    subst long
    decide +kernel
  split at letter
  · rename_i dotted
    rcases Bool.or_eq_true_iff.1 dotted with same | same <;> rw [of_decide_eq_true same] <;> decide +kernel
  unfold lowerLetter at letter
  split at letter
  · rename_i kelvin
    subst kelvin
    decide +kernel
  unfold Char.toLower at letter
  split at letter
  · rename_i between
    have capital : Ranges.has [(0x41, 0x5a)] c = true :=
      Ranges.has_iff.2 ⟨(0x41, 0x5a), List.mem_singleton_self _, between⟩
    have whole : isWord c = true := by
      rw [isWord_eq]
      exact Ranges.has_within (by decide +kernel) capital
    have plain : isDecimal c = false := Ranges.has_disjoint (by decide +kernel) capital
    simp [isWordStart, whole, plain]
  · exact alphabet_isWordStart c letter

end DiagramStream.Text

namespace DiagramStream.Dot
open Text Scan

variable {cuts : Char → Bool} {piece rest other text digits : List Char} {c : Char} {kind one : Kind} {rule : Rule}

-- Texts between two marks

def htmlStep (inner : Bool) (c : Char) : Option (Option Bool) :=
  if c = '<' then (if inner then none else some (some true))
  else if c = '>' then (if inner then some (some false) else some none)
  else some (some inner)

theorem html_stepwise : Rule.Stepwise htmlStep htmlLength := by
  refine ⟨fun _ _ => rfl, ?_⟩
  intro inner count c text
  rw [htmlLength, htmlStep]
  cases inner <;> by_cases opens : c = '<' <;> by_cases closes : c = '>' <;> simp [opens, closes]

def quotedStep (escaped : Bool) (c : Char) : Option (Option Bool) :=
  if escaped then (if c = '\n' then none else some (some false))
  else if c = '\\' then some (some true)
  else if c = '"' then some none
  else some (some false)

theorem quoted_stepwise : Rule.Stepwise quotedStep quotedLength := by
  refine ⟨fun _ _ => rfl, ?_⟩
  intro escaped count c text
  rw [quotedLength, quotedStep]
  cases escaped with
  | true => by_cases feed : c = '\n' <;> simp [feed]
  | false => by_cases escape : c = '\\' <;> by_cases quote : c = '"' <;> simp [escape, quote]

theorem html_opens (applies : htmlRule (c :: text) ≠ 0) : c = '<' := by
  unfold htmlRule at applies
  split at applies
  · rename_i same
    exact (List.cons.inj same).1
  · exact absurd rfl applies

theorem quoted_opens (applies : quotedRule (c :: text) ≠ 0) : c = '"' := by
  unfold quotedRule at applies
  split at applies
  · rename_i same
    exact (List.cons.inj same).1
  · exact absurd rfl applies

theorem html_settled (cuts : Char → Bool) : Rule.Settled cuts htmlRule :=
  html_stepwise.settled cuts (fun _ => rfl) fun _ _ => html_opens

theorem quoted_settled (cuts : Char → Bool) : Rule.Settled cuts quotedRule :=
  quoted_stepwise.settled cuts (fun _ => rfl) fun _ _ => quoted_opens

theorem html_bounded : htmlRule.Bounded := by
  intro text
  unfold htmlRule
  split
  · rw [List.length_cons, Nat.add_comm]
    exact html_stepwise.bounded false 1 _
  · exact Nat.zero_le _

theorem quoted_bounded : quotedRule.Bounded := by
  intro text
  unfold quotedRule
  split
  · rw [List.length_cons, Nat.add_comm]
    exact quoted_stepwise.bounded false 1 _
  · exact Nat.zero_le _

-- Numbers

-- A point and the digits behind it.
def fractionLength : List Char → Nat
  | '.' :: rest => 1 + decimalLength rest
  | _ => 0

theorem unsignedLength_digits (some_ : digits ≠ []) (inside : ∀ c ∈ digits, isDecimal c = true)
    (ends : ∀ c, text.head? = some c → isDecimal c = false) :
    unsignedLength (digits ++ text) = digits.length + fractionLength text := by
  have whole : decimalLength (digits ++ text) = digits.length := by rw [decimalLength, takeWhile_ended inside ends]
  obtain ⟨c, digits, rfl⟩ := List.exists_cons_of_ne_nil some_
  unfold unsignedLength
  split
  · rename_i same
    obtain rfl := (List.cons.inj same).1
    cases inside '.' List.mem_cons_self
  · simp only [whole, List.drop_left]
    rw [if_neg (by simp)]
    split
    · exact Nat.add_assoc _ _ _
    · rename_i plain
      have none : fractionLength text = 0 := by
        unfold fractionLength
        split
        · exact (plain _ rfl).elim
        · rfl
      rw [none, Nat.add_zero]

theorem unsignedLength_point (text : List Char) :
    unsignedLength ('.' :: text) = if decimalLength text = 0 then 0 else 1 + decimalLength text := rfl

-- A number begins with its digits, or with a point.
theorem unsignedLength_none (plain : c ≠ '.') (other : isDecimal c = false) : unsignedLength (c :: text) = 0 := by
  unfold unsignedLength
  split
  · rename_i same
    exact absurd (List.cons.inj same).1 plain
  · simp [decimalLength, other]

theorem unsigned_opens (applies : unsignedLength (c :: text) ≠ 0) : isFigure c = true := by
  by_cases point : c = '.'
  · simp [isFigure, point]
  · cases digit : isDecimal c with
    | true => simp [isFigure, digit]
    | false => exact absurd (unsignedLength_none point digit) applies

theorem numeral_opens (applies : numeralRule (c :: text) ≠ 0) : c = '-' ∨ isFigure c = true := by
  by_cases minus : c = '-'
  · exact .inl minus
  · rw [numeralRule_unsigned (by simpa using minus)] at applies
    exact .inr (unsigned_opens applies)

theorem fraction_follows (apart : ∀ c, cuts c = true → isFigure c = false) (follows : Follows cuts rest other)
    (taken : fractionLength (piece ++ rest) = piece.length) : fractionLength (piece ++ other) = piece.length := by
  have decimal : ∀ c, cuts c = true → isDecimal c = false := fun c cut => (Bool.or_eq_false_iff.1 (apart c cut)).1
  cases piece with
  | nil =>
    have plain : ∀ c, rest.head? = some c → (c == '.') = false := by
      intro c head
      obtain ⟨more, rfl⟩ := List.head?_eq_some_iff.1 head
      refine Bool.eq_false_iff.2 fun point => ?_
      obtain rfl := beq_iff_eq.1 point
      exact absurd taken (by simp [fractionLength])
    have away := follows.ends (fun c cut => (Bool.or_eq_false_iff.1 (apart c cut)).2) plain
    unfold fractionLength
    split
    · rename_i same
      cases away '.' (by rw [← List.nil_append other, same]; rfl)
    · rfl
  | cons c piece =>
    by_cases point : c = '.'
    · subst point
      replace taken : 1 + decimalLength (piece ++ rest) = piece.length + 1 := taken
      show 1 + decimalLength (piece ++ other) = piece.length + 1
      rw [Nat.add_comm, decimalLength, follows.takeWhile decimal (by rw [← decimalLength]; omega)]
    · unfold fractionLength at taken
      split at taken
      · rename_i same
        exact absurd (List.cons.inj same).1 point
      · cases taken

theorem unsigned_settled (apart : ∀ c, cuts c = true → isFigure c = false) : Rule.Settled cuts unsignedLength := by
  intro piece rest other some_ taken follows
  have decimal : ∀ c, cuts c = true → isDecimal c = false := fun c cut => (Bool.or_eq_false_iff.1 (apart c cut)).1
  have applies := Rule.taken_ne_zero some_ taken
  by_cases point : piece.head? = some '.'
  · obtain ⟨piece, rfl⟩ := List.head?_eq_some_iff.1 point
    rw [List.cons_append, unsignedLength_point] at applies taken ⊢
    split at taken
    · cases taken
    · rename_i some_
      have length : decimalLength (piece ++ rest) = piece.length := by
        rw [List.length_cons] at taken
        omega
      have same : decimalLength (piece ++ other) = piece.length := follows.takeWhile decimal length
      rw [same, if_neg (length ▸ some_), List.length_cons, Nat.add_comm]
  · -- The digits at the head belong to the piece, and what is left of it is empty or begins with a point.
    obtain ⟨digits, tail, whole, inside, ends⟩ := takeWhile_cut isDecimal (piece ++ rest)
    have filled : digits ≠ [] := by
      rintro rfl
      obtain ⟨c, body, rfl⟩ := List.exists_cons_of_ne_nil some_
      have plain : c ≠ '.' := fun same => point (congrArg some same)
      exact applies (unsignedLength_none plain (ends c (by rw [← List.nil_append tail, ← whole]; rfl)))
    rw [whole, unsignedLength_digits filled inside ends] at taken
    obtain ⟨body, rfl⟩ : digits <+: piece :=
      List.prefix_of_prefix_length_le ⟨tail, whole.symm⟩ (List.prefix_append _ _) (by omega)
    obtain rfl : tail = body ++ rest := by simpa using whole.symm
    have length : fractionLength (body ++ rest) = body.length := by
      rw [List.length_append] at taken
      omega
    have ends' : ∀ c, (body ++ other).head? = some c → isDecimal c = false := by
      cases body with
      | nil => exact follows.ends decimal ends
      | cons => exact ends
    rw [List.append_assoc, unsignedLength_digits filled inside ends',
      fraction_follows apart follows length, List.length_append]

theorem numeral_settled (apart : ∀ c, cuts c = true → isFigure c = false) : Rule.Settled cuts numeralRule := by
  intro piece rest other some_ taken follows
  by_cases signed : piece.head? = some '-'
  · obtain ⟨body, rfl⟩ := List.head?_eq_some_iff.1 signed
    have applies := Rule.taken_ne_zero some_ taken
    simp only [List.cons_append, numeralRule, List.length_cons] at applies taken ⊢
    split at taken
    · cases taken
    · rename_i more
      have length : unsignedLength (body ++ rest) = body.length := by omega
      have inside : body ≠ [] := fun empty => more (by rw [length, empty]; rfl)
      have same := unsigned_settled apart body rest other inside length follows
      rw [same, if_neg (length ▸ more), Nat.add_comm]
  · obtain ⟨c, body, rfl⟩ := List.exists_cons_of_ne_nil some_
    have plain (text : List Char) : numeralRule (c :: body ++ text) = unsignedLength (c :: body ++ text) :=
      numeralRule_unsigned signed
    rw [plain] at taken ⊢
    exact unsigned_settled apart _ _ _ some_ taken follows

theorem unsigned_bounded (text : List Char) : unsignedLength text ≤ text.length := by
  obtain ⟨digits, tail, rfl, inside, ends⟩ := takeWhile_cut isDecimal text
  have digits_bounded (text : List Char) : decimalLength text ≤ text.length := (List.takeWhile_prefix _).length_le
  by_cases some_ : digits = []
  · subst some_
    unfold unsignedLength
    split
    · rename_i rest same
      have := digits_bounded rest
      rw [same, List.length_cons]
      split <;> omega
    · have none : decimalLength tail = 0 := by rw [decimalLength, ← List.nil_append tail, takeWhile_ended inside ends]; rfl
      simp [none]
  · rw [unsignedLength_digits some_ inside ends, List.length_append]
    refine Nat.add_le_add_left ?_ _
    unfold fractionLength
    split
    · have := digits_bounded (by assumption)
      simp only [List.length_cons]
      omega
    · exact Nat.zero_le _

theorem numeral_bounded : numeralRule.Bounded := by
  intro text
  unfold numeralRule
  split
  · rename_i rest
    have := unsigned_bounded rest
    simp only [List.length_cons]
    split <;> omega
  · exact unsigned_bounded _

-- Edge operators

def operatorRule : Rule := .oneOf [.literal ['-', '>'], .literal ['-', '-']]

theorem operator_exact (some_ : piece ≠ []) (taken : operatorRule (piece ++ rest) = piece.length) :
    piece = ['-', '>'] ∨ piece = ['-', '-'] := by
  obtain ⟨rule, listed, -, same⟩ := Rule.oneOf_rule (Rule.taken_ne_zero some_ taken)
  replace taken := same.symm.trans taken
  rcases List.mem_cons.1 listed with rfl | listed
  · exact .inl (Rule.literal_exact some_ taken)
  · cases List.mem_singleton.1 listed
    exact .inr (Rule.literal_exact some_ taken)

theorem operator_opens (applies : operatorRule (c :: text) ≠ 0) : c = '-' := by
  obtain ⟨rule, listed, applies, -⟩ := Rule.oneOf_rule applies
  rcases List.mem_cons.1 listed with rfl | listed
  · exact Rule.prefix_opens (Rule.literal_prefix applies)
  · cases List.mem_singleton.1 listed
    exact Rule.prefix_opens (Rule.literal_prefix applies)

theorem operator_settled (cuts : Char → Bool) : Rule.Settled cuts operatorRule := by
  intro piece rest other some_ taken _
  rcases operator_exact some_ taken with rfl | rfl <;> rfl

theorem operator_bounded : operatorRule.Bounded := by
  refine Rule.oneOf_bounded ?_
  intro rule listed
  rcases List.mem_cons.1 listed with rfl | listed
  · exact Rule.literal_bounded _
  · cases List.mem_singleton.1 listed
    exact Rule.literal_bounded _

-- A minus begins a number or an operator, but what begins the one never begins the other.
theorem numeral_not_operator (some_ : piece ≠ []) (taken : numeralRule (piece ++ rest) = piece.length)
    (other : List Char) : operatorRule (piece ++ other) = 0 := by
  refine Classical.byContradiction fun applies => ?_
  obtain ⟨c, body, rfl⟩ := List.exists_cons_of_ne_nil some_
  obtain rfl := operator_opens applies
  have more : unsignedLength (body ++ rest) ≠ 0 := by
    intro none
    simp [numeralRule, none] at taken
  obtain ⟨d, digits, rfl⟩ : ∃ d digits, body = d :: digits := by
    refine List.exists_cons_of_ne_nil ?_
    rintro rfl
    simp only [List.cons_append, numeralRule, if_neg more, List.length_cons, List.length_nil] at taken
    omega
  have figure := unsigned_opens more
  obtain ⟨rule, listed, applies, -⟩ := Rule.oneOf_rule applies
  have second : d = '>' ∨ d = '-' := by
    rcases List.mem_cons.1 listed with rfl | listed
    · exact .inl (Rule.prefix_opens (List.cons_prefix_cons.1 (Rule.literal_prefix applies)).2)
    · cases List.mem_singleton.1 listed
      exact .inr (Rule.prefix_opens (List.cons_prefix_cons.1 (Rule.literal_prefix applies)).2)
  rcases second with rfl | rfl <;> cases figure

theorem operator_not_numeral (some_ : piece ≠ []) (taken : operatorRule (piece ++ rest) = piece.length)
    (other : List Char) : numeralRule (piece ++ other) = 0 := by
  rcases operator_exact some_ taken with rfl | rfl <;> rfl

-- The rule of each kind

def ruleOf (kind : Kind) : Rule := (rules.lookup kind).getD fun _ => 0

theorem rule_listed (listed : (kind, rule) ∈ rules) : rule = ruleOf kind := by
  simp only [rules, List.mem_cons, Prod.mk.injEq, List.not_mem_nil, or_false] at listed
  rcases listed with listed | listed | listed | listed | listed | listed | listed | listed | listed | listed | listed |
    listed | listed | listed | listed | listed | listed | listed | listed | listed | listed | listed | listed <;>
  obtain ⟨rfl, rfl⟩ := listed <;> rfl

-- Kinds of token that begin with the same characters.
inductive Family where
  | word
  | number
  | remark
  | alone (kind : Kind)

def Kind.family : Kind → Family
  | .subgraph => .word
  | .digraph => .word
  | .strict => .word
  | .graph => .word
  | .edge => .word
  | .node => .word
  | .word => .word
  | .numeral => .number
  | .operator => .number
  | .blockComment => .remark
  | .lineComment => .remark
  | kind => .alone kind

def signs : List (Char × Kind) :=
  [('<', .html), ('"', .quoted), ('#', .hashComment), (':', .colon), (',', .comma), ('=', .equals),
   ('\x7b', .leftBrace), ('[', .leftBracket), ('\x7d', .rightBrace), (']', .rightBracket), (';', .semicolon)]

def family? (c : Char) : Option Family :=
  if isWordStart c then some .word
  else if isFigure c || c == '-' then some .number
  else if isGap c then some (.alone .blank)
  else if c == '/' then some .remark
  else (signs.lookup c).map .alone

theorem family?_keyword {word : List Char} (small : word.all alphabet.contains = true)
    (applies : Rule.anyCase word (c :: text) ≠ 0) : family? c = some .word := by
  have letter : foldLetter c ∈ alphabet := by
    obtain ⟨folded, -⟩ := @anyCase_taken ((c :: text).take (Rule.anyCase word (c :: text)))
      ((c :: text).drop (Rule.anyCase word (c :: text))) word (by rwa [List.take_append_drop])
      (by rw [List.take_append_drop])
    obtain ⟨count, length⟩ := Nat.exists_eq_succ_of_ne_zero applies
    rw [length, List.take_succ_cons] at folded
    exact mem_alphabet small _ (folded ▸ List.mem_cons_self)
  simp [family?, isWordStart_of_folded letter]

theorem family?_word (applies : Rule.word (c :: text) ≠ 0) : family? c = some .word := by
  replace applies : (if isWordStart c then 1 + wordLength text else 0) ≠ 0 := applies
  have start : isWordStart c = true := by
    refine Classical.byContradiction fun other => ?_
    exact applies (if_neg other)
  simp [family?, start]

theorem family?_numeral (applies : numeralRule (c :: text) ≠ 0) : family? c = some .number := by
  rcases numeral_opens applies with rfl | figure
  · rfl
  · have plain : isWordStart c = false := by
      rcases Bool.or_eq_true_iff.1 figure with digit | point
      · simp [isWordStart, digit]
      · rw [beq_iff_eq.1 point]
        rfl
    simp [family?, figure, plain]

theorem family?_blank (applies : Rule.run isGap (c :: text) ≠ 0) : family? c = some (.alone .blank) := by
  have gap : isGap c = true := by
    refine Classical.byContradiction fun other => applies ?_
    show ((c :: text).takeWhile isGap).length = 0
    rw [List.takeWhile_cons_of_neg other]
    rfl
  simp only [isGap, isSpacing, Bool.or_eq_true, beq_iff_eq] at gap
  rcases gap with (((rfl | rfl) | rfl) | rfl) | rfl <;> rfl

theorem family?_sign {mark : Char} {word : List Char} (opens : mark :: word <+: c :: text) :
    family? c = family? mark := by
  rw [Rule.prefix_opens opens]

-- The first character of a piece tells which rules there are to choose from.
theorem family?_rule (applies : ruleOf kind (c :: text) ≠ 0) : family? c = some kind.family := by
  cases kind with
  | subgraph => exact @family?_keyword _ _ "subgraph".toList (by decide +kernel) applies
  | digraph => exact @family?_keyword _ _ "digraph".toList (by decide +kernel) applies
  | strict => exact @family?_keyword _ _ "strict".toList (by decide +kernel) applies
  | graph => exact @family?_keyword _ _ "graph".toList (by decide +kernel) applies
  | edge => exact @family?_keyword _ _ "edge".toList (by decide +kernel) applies
  | node => exact @family?_keyword _ _ "node".toList (by decide +kernel) applies
  | word => exact family?_word applies
  | numeral => exact family?_numeral applies
  | operator => rw [operator_opens applies]; rfl
  | blank => exact family?_blank applies
  | html => rw [html_opens applies]; rfl
  | quoted => rw [quoted_opens applies]; rfl
  | blockComment => exact family?_sign (Rule.enclosed_prefix applies)
  | lineComment => exact family?_sign (Rule.line_prefix applies)
  | hashComment => exact family?_sign (Rule.line_prefix applies)
  | colon => exact family?_sign (Rule.literal_prefix applies)
  | comma => exact family?_sign (Rule.literal_prefix applies)
  | equals => exact family?_sign (Rule.literal_prefix applies)
  | leftBrace => exact family?_sign (Rule.literal_prefix applies)
  | leftBracket => exact family?_sign (Rule.literal_prefix applies)
  | rightBrace => exact family?_sign (Rule.literal_prefix applies)
  | rightBracket => exact family?_sign (Rule.literal_prefix applies)
  | semicolon => exact family?_sign (Rule.literal_prefix applies)

-- What may stand behind a token in the place of anything: a blank, or the start of a comment. What is passed over may
-- go on with it, so nothing cuts that off.
def Kind.endsAt (kind : Kind) (c : Char) : Bool := !kind.ignored && (isGap c || c == '/' || c == '#')

theorem endsAt_cases (cut : kind.endsAt c = true) :
    kind.ignored = false ∧ (c = ' ' ∨ c = '\t' ∨ c = '\x0c' ∨ c = '\r' ∨ c = '\n' ∨ c = '/' ∨ c = '#') := by
  simpa [Kind.endsAt, isGap, isSpacing, or_assoc] using cut

theorem word_apart (c : Char) (cut : kind.endsAt c = true) : isWord c = false := by
  obtain ⟨-, rfl | rfl | rfl | rfl | rfl | rfl | rfl⟩ := endsAt_cases cut <;> rfl

theorem figure_apart (c : Char) (cut : kind.endsAt c = true) : isFigure c = false := by
  obtain ⟨-, rfl | rfl | rfl | rfl | rfl | rfl | rfl⟩ := endsAt_cases cut <;> rfl

theorem word_family (family : kind.family = .word) : Rule.ByWord (ruleOf kind) := by
  cases kind with
  | subgraph => exact Rule.anyCase_byWord (@alphabet_isWord "subgraph".toList (by decide +kernel))
  | digraph => exact Rule.anyCase_byWord (@alphabet_isWord "digraph".toList (by decide +kernel))
  | strict => exact Rule.anyCase_byWord (@alphabet_isWord "strict".toList (by decide +kernel))
  | graph => exact Rule.anyCase_byWord (@alphabet_isWord "graph".toList (by decide +kernel))
  | edge => exact Rule.anyCase_byWord (@alphabet_isWord "edge".toList (by decide +kernel))
  | node => exact Rule.anyCase_byWord (@alphabet_isWord "node".toList (by decide +kernel))
  | word => exact Rule.word_byWord
  | _ => cases family

theorem number_family (family : kind.family = .number) : kind = .numeral ∨ kind = .operator := by
  cases kind with
  | numeral => exact .inl rfl
  | operator => exact .inr rfl
  | _ => cases family

theorem remark_family (family : kind.family = .remark) : kind = .blockComment ∨ kind = .lineComment := by
  cases kind with
  | blockComment => exact .inl rfl
  | lineComment => exact .inr rfl
  | _ => cases family

theorem alone_family (family : kind.family = .alone one) : kind = one := by
  cases kind <;> cases family <;> rfl

theorem rule_settled (kind : Kind) : Rule.Settled kind.endsAt (ruleOf kind) := by
  cases kind with
  | subgraph | digraph | strict | graph | edge | node | word => exact (word_family rfl).settled word_apart
  | html => exact html_settled _
  | numeral => exact numeral_settled figure_apart
  | quoted => exact quoted_settled _
  | blank => exact Rule.run_settled nofun
  | blockComment => exact Rule.enclosed_settled _ (List.cons_ne_nil _ _)
  | lineComment | hashComment => exact Rule.line_settled nofun
  | operator => exact operator_settled _
  | colon | comma | equals | leftBrace | leftBracket | rightBrace | rightBracket | semicolon =>
    exact Rule.literal_settled _ _

-- A comment of the one sort never begins as one of the other.
theorem block_not_line (some_ : piece ≠ []) (taken : ruleOf .blockComment (piece ++ rest) = piece.length)
    (other : List Char) : ruleOf .lineComment (piece ++ other) = 0 := by
  obtain ⟨body, -, rfl⟩ := Rule.enclosed_opens (List.cons_ne_nil _ _) some_ taken
  rfl

theorem line_not_block (some_ : piece ≠ []) (taken : ruleOf .lineComment (piece ++ rest) = piece.length)
    (other : List Char) : ruleOf .blockComment (piece ++ other) = 0 := by
  obtain ⟨body, rfl⟩ := Rule.line_opens some_ taken
  rfl

-- All rules take of the new text what they took of the old one.
theorem rule_follows (one : Kind) (some_ : piece ≠ []) (taken : ruleOf kind (piece ++ rest) = piece.length)
    (follows : Follows kind.endsAt rest other) : ruleOf one (piece ++ other) = ruleOf one (piece ++ rest) := by
  have same : ruleOf kind (piece ++ other) = ruleOf kind (piece ++ rest) :=
    (rule_settled kind piece rest other some_ taken follows).trans taken.symm
  by_cases alike : one.family = kind.family
  · cases family : kind.family with
    | word =>
      exact (word_family (alike.trans family)).same (word_family family) some_ taken word_apart follows
    | number =>
      rcases number_family family with rfl | rfl <;> rcases number_family alike with rfl | rfl
      · exact same
      · exact (numeral_not_operator some_ taken other).trans (numeral_not_operator some_ taken rest).symm
      · exact (operator_not_numeral some_ taken other).trans (operator_not_numeral some_ taken rest).symm
      · exact same
    | remark =>
      rcases remark_family family with rfl | rfl <;> rcases remark_family alike with rfl | rfl
      · exact same
      · exact (block_not_line some_ taken other).trans (block_not_line some_ taken rest).symm
      · exact (line_not_block some_ taken other).trans (line_not_block some_ taken rest).symm
      · exact same
    | alone own =>
      rw [alone_family (alike.trans family), ← alone_family family]
      exact same
  · obtain ⟨c, body, rfl⟩ := List.exists_cons_of_ne_nil some_
    have here : family? c = some kind.family := family?_rule (Rule.taken_ne_zero some_ taken)
    have silent (text : List Char) : ruleOf one (c :: text) = 0 := by
      refine Classical.byContradiction fun applies => alike ?_
      exact Option.some.inj ((family?_rule applies).symm.trans here)
    rw [List.cons_append, List.cons_append, silent, silent]

-- The grammar

theorem match_follows {state : State} {count : Nat} (length : count + 1 = piece.length)
    (found : grammar.match? state (piece ++ rest) = some (kind, count)) (follows : Follows kind.endsAt rest other) :
    grammar.match? state (piece ++ other) = some (kind, count) := by
  obtain ⟨rule, listed, taken⟩ := firstMatch_rule found
  obtain rfl := rule_listed listed
  rw [← found]
  refine firstMatch_congr ?_
  intro entry listed _
  rw [rule_listed listed]
  exact rule_follows _ (by rintro rfl; cases length) (taken.trans length) follows

theorem steady : grammar.Steady :=
  fun _ _ _ c _ _ _ length found => match_follows length found ⟨c, rfl, .inl rfl⟩

-- Behind a token a blank or a comment may stand at any time.
theorem match_cut {state : State} {count : Nat} (length : count + 1 = piece.length)
    (found : grammar.match? state (piece ++ rest) = some (kind, count)) (cut : kind.endsAt c = true) (other : List Char) :
    grammar.match? state (piece ++ c :: other) = some (kind, count) :=
  match_follows length found ⟨c, rfl, .inr cut⟩

theorem rule_bounded (kind : Kind) : (ruleOf kind).Bounded := by
  cases kind with
  | subgraph | digraph | strict | graph | edge | node => exact Rule.anyCase_bounded _
  | word => exact Rule.word_bounded
  | html => exact html_bounded
  | numeral => exact numeral_bounded
  | quoted => exact quoted_bounded
  | blank => exact Rule.run_bounded _
  | blockComment => exact Rule.enclosed_bounded _ _
  | lineComment | hashComment => exact Rule.line_bounded _
  | operator => exact operator_bounded
  | colon | comma | equals | leftBrace | leftBracket | rightBrace | rightBracket | semicolon =>
    exact Rule.literal_bounded _

theorem fits : grammar.Fits := by
  intro state text kind count found
  obtain ⟨rule, listed, taken⟩ := firstMatch_rule found
  rw [← taken, rule_listed listed]
  exact rule_bounded kind text

end DiagramStream.Dot
