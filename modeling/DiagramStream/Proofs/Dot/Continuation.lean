import DiagramStream.Proofs.Dot.Filler

/-!
A quoted id that goes on in the next line. Main statement: a backslash and a line feed inside the quotes make every text
unreadable; with a carriage return between the two the text is read as before, unless they cut another such mark.
-/

namespace DiagramStream.Dot
open Text Scan

variable {left right text : List Char} {c : Char} {state before later : State} {token : Token Kind}

-- Whether a text inside quotes ends behind a backslash that wants another character.
def escapes (escaped : Bool) (text : List Char) : Bool := text.foldl (fun escaped c => !escaped && c == '\\') escaped

def openEscape (text : List Char) : Bool := escapes false text

-- A line continuation runs from the one text into the other.
def Straddles (left right : List Char) : Prop :=
  ∃ front back, front ≠ [] ∧ back ≠ [] ∧ (front ++ back = ['\\', '\n'] ∨ front ++ back = ['\\', '\r', '\n']) ∧
    front <:+ left ∧ back <+: right

theorem Straddles.behind (straddles : Straddles left right) (c : Char) : Straddles (c :: left) right := by
  obtain ⟨front, back, some_, more, mark, ends, begins⟩ := straddles
  exact ⟨front, back, some_, more, mark, ends.trans (List.suffix_cons c left), begins⟩

theorem straddles_of_opens {mark : List Char} (known : mark = ['\\', '\n'] ∨ mark = ['\\', '\r', '\n']) (some_ : left ≠ [])
    (opens : mark <+: left ++ right) (open_ : ¬ mark <+: left) : Straddles left right := by
  rcases List.prefix_or_prefix_of_prefix opens (List.prefix_append left right) with inside | ⟨back, rfl⟩
  · exact absurd inside open_
  · refine ⟨left, back, some_, ?_, known, List.suffix_rfl, (List.prefix_append_right_inj left).1 opens⟩
    rintro rfl
    rw [List.append_nil] at open_
    exact open_ List.prefix_rfl

theorem not_straddles (head : right.head? ≠ some '\n' ∧ right.head? ≠ some '\r') : ¬ Straddles left right := by
  rintro ⟨front, back, some_, more, mark, -, begins⟩
  obtain ⟨_, front, rfl⟩ := List.exists_cons_of_ne_nil some_
  obtain ⟨c, back, rfl⟩ := List.exists_cons_of_ne_nil more
  obtain ⟨rest, rfl⟩ := begins
  have known : c ∈ ['\r', '\n'] := by
    have inside : c ∈ front ++ c :: back := by simp
    rcases mark with same | same
    · have tail : front ++ c :: back = ['\n'] := (List.cons.inj same).2
      rw [tail] at inside
      exact List.mem_cons_of_mem _ inside
    · have tail : front ++ c :: back = ['\r', '\n'] := (List.cons.inj same).2
      rwa [tail] at inside
  rcases List.mem_cons.1 known with rfl | known
  · exact head.2 rfl
  · exact head.1 (congrArg some (List.mem_singleton.1 known))

-- Joining

theorem joinContinued_keep (feed : ¬ ['\\', '\n'] <+: c :: text) (lineEnd : ¬ ['\\', '\r', '\n'] <+: c :: text) :
    joinContinued (c :: text) = c :: joinContinued text := by
  rw [joinContinued]
  · rintro rest rfl rfl
    exact feed (List.prefix_append ['\\', '\n'] rest)
  · rintro rest rfl rfl
    exact lineEnd (List.prefix_append ['\\', '\r', '\n'] rest)

theorem joinContinued_append (apart : ¬ Straddles left right) :
    joinContinued (left ++ right) = joinContinued left ++ joinContinued right := by
  fun_induction joinContinued left with
  | case1 rest ih => exact ih fun straddles => apart ((straddles.behind _).behind _)
  | case2 rest ih => exact ih fun straddles => apart (((straddles.behind _).behind _).behind _)
  | case3 c rest feed lineEnd ih =>
    rw [List.cons_append, joinContinued_keep, ih fun straddles => apart (straddles.behind c)]
    · rfl
    · intro opens
      refine apart (straddles_of_opens (.inl rfl) (List.cons_ne_nil _ _) opens ?_)
      rintro ⟨more, same⟩
      obtain ⟨rfl, rfl⟩ := List.cons.inj same
      exact feed more rfl rfl
    · intro opens
      refine apart (straddles_of_opens (.inr rfl) (List.cons_ne_nil _ _) opens ?_)
      rintro ⟨more, same⟩
      obtain ⟨rfl, rfl⟩ := List.cons.inj same
      exact lineEnd more rfl rfl
  | case4 => rfl

-- A line continuation that is put in begins with a backslash, which goes on with no other.
theorem joinContinued_insert (apart : ¬ Straddles left right) :
    joinContinued (left ++ (['\\', '\r', '\n'] ++ right)) = joinContinued (left ++ right) := by
  have fresh : ¬ Straddles left (['\\', '\r', '\n'] ++ right) := not_straddles (by simp)
  rw [joinContinued_append fresh, joinContinued_append apart]
  rfl

-- Lexing

variable {escaped : Bool} {count more : Nat} {back : List Char}

theorem quotedStep_next {next : Bool} (moved : quotedStep escaped c = some (some next)) :
    next = (!escaped && c == '\\') := by
  unfold quotedStep at moved
  split at moved
  · rename_i escape
    split at moved
    · cases moved
    · cases moved
      rw [escape]
      rfl
  · rename_i plain
    simp only [Bool.eq_false_iff.2 plain, Bool.not_false, Bool.true_and]
    split at moved
    · rename_i same
      cases moved
      rw [same]
      rfl
    · rename_i other
      split at moved
      · cases moved
      · cases moved
        simp [other]

-- What is counted through the front of a text is counted whatever stands behind it.
theorem quotedLength_front (some_ : more ≠ 0)
    (taken : quotedLength escaped count (left ++ right) = count + left.length + more) (back : List Char) :
    quotedLength escaped count (left ++ back) = quotedLength (escapes escaped left) (count + left.length) back := by
  induction left generalizing escaped count with
  | nil => rfl
  | cons c left ih =>
    have length : count + (c :: left).length = count + 1 + left.length := by
      rw [List.length_cons]
      omega
    rw [List.cons_append, quoted_stepwise.goes, length] at taken ⊢
    cases moved : quotedStep escaped c with
    | none =>
      rw [moved] at taken
      replace taken : 0 = count + 1 + left.length + more := taken
      omega
    | some moved' =>
      rw [moved] at taken
      cases moved' with
      | none =>
        replace taken : count + 1 = count + 1 + left.length + more := taken
        omega
      | some next =>
        rw [quotedStep_next moved] at taken ⊢
        exact ih taken

theorem quoted_refused (some_ : more ≠ 0) (taken : quotedLength false 1 (left ++ right) = 1 + left.length + more)
    (outside : openEscape left = false) (back : List Char) :
    quotedRule ('"' :: (left ++ (['\\', '\n'] ++ back))) = 0 := by
  show quotedLength false 1 (left ++ (['\\', '\n'] ++ back)) = 0
  rw [quotedLength_front some_ taken, show escapes false left = false from outside]
  rfl

theorem quoted_goes (some_ : more ≠ 0) (taken : quotedLength false 1 (left ++ right) = 1 + left.length + more)
    (outside : openEscape left = false) :
    quotedRule ('"' :: (left ++ (['\\', '\r', '\n'] ++ right))) = 1 + left.length + 3 + more := by
  have behind := taken
  rw [quotedLength_front some_ taken, show escapes false left = false from outside] at behind
  show quotedLength false 1 (left ++ (['\\', '\r', '\n'] ++ right)) = _
  rw [quotedLength_front some_ taken, show escapes false left = false from outside]
  exact quoted_stepwise.moves some_ behind (1 + left.length + 3)

-- The grammar

-- Nothing but a quoted text begins with a quote.
theorem match_quote {kind : Kind} (found : grammar.match? state ('"' :: text) = some (kind, count)) :
    kind = .quoted ∧ quotedRule ('"' :: text) = count + 1 := by
  obtain ⟨rule, listed, taken⟩ := firstMatch_rule found
  obtain rfl := rule_listed listed
  have quote : family? '"' = some (.alone .quoted) := rfl
  have family : family? '"' = some kind.family := family?_rule (by rw [taken]; exact Nat.succ_ne_zero count)
  obtain rfl := alone_family (Option.some.inj (family.symm.trans quote))
  exact ⟨rfl, taken⟩

theorem match_quoted (expected : state.stage.expects .quoted = true) (taken : quotedRule ('"' :: text) = count + 1) :
    grammar.match? state ('"' :: text) = some (.quoted, count) := by
  refine firstMatch_at 9 rfl (by simp [grammar, expected]) taken ?_
  intro entry listed _
  have silent : ((rules.take 9).all fun entry => entry.2 ('"' :: text) == 0) = true := rfl
  exact beq_iff_eq.1 (List.all_eq_true.1 silent entry listed)

-- Of a quoted text nothing counts but what it stands for.
theorem shift_quoted {word other : List Char} {place : Position} {offset : Nat}
    (same : bareQuotes (joinContinued (inner word)) = bareQuotes (joinContinued (inner other))) :
    state.shift ⟨.quoted, word, place, offset⟩ = state.shift ⟨.quoted, other, place, offset⟩ := by
  have id : idText ⟨.quoted, word, place, offset⟩ = idText ⟨.quoted, other, place, offset⟩ := by
    simp only [idText, same]
  have followed : state.stage.follow ⟨.quoted, word, place, offset⟩ =
      state.stage.follow ⟨.quoted, other, place, offset⟩ := by
    cases state.stage with
    | colon site name half => cases half <;> simp only [Stage.follow, id]
    | _ => simp only [Stage.follow, Site.follow, id]
  have begun : Stage.begin ⟨.quoted, word, place, offset⟩ = Stage.begin ⟨.quoted, other, place, offset⟩ := by
    simp only [Stage.begin, id]
  simp only [State.shift, followed, begun]

theorem parse_error {text : String} (unread : ∀ result, ¬ grammar.Reads State.start (Cursor.start text.toList) result) :
    ∃ failure, parse text = .error failure := by
  cases outcome : parse text with
  | error failure => exact ⟨failure, rfl⟩
  | ok document =>
    obtain ⟨result, -, reads⟩ := parse_ok outcome
    exact absurd reads (unread result)

theorem unread_quote {place : Position} {offset : Nat} {result : List Placed} (refused : quotedRule ('"' :: text) = 0) :
    ¬ grammar.Reads state ⟨'"' :: text, place, offset⟩ result := by
  intro reads
  cases reads with
  | done ended => cases ended
  | skip _ found => cases refused.symm.trans (match_quote found).2
  | take _ found => cases refused.symm.trans (match_quote found).2

-- A quoted token, with a place inside it.
theorem quoted_stands {gone rest : List Char} {cursor : Cursor}
    (stands : grammar.Stands state cursor token gone rest before later) (quoted : token.kind = .quoted)
    (content : inner token.text = left ++ right) :
    token.text = '"' :: (left ++ (right ++ ['"'])) ∧
      quotedLength false 1 (left ++ (right ++ '"' :: rest)) = 1 + left.length + (right.length + 1) := by
  obtain ⟨count, length, found⟩ := stands.found
  obtain ⟨rule, listed, taken⟩ := firstMatch_rule found
  obtain rfl := rule_listed listed
  rw [quoted] at taken
  replace taken : quotedRule (token.text ++ rest) = token.text.length := taken.trans length
  have applies : quotedRule (token.text ++ rest) ≠ 0 := by omega
  have shape := quoted_taken applies (by rw [taken, List.take_left])
  rw [content, List.append_assoc] at shape
  refine ⟨shape, ?_⟩
  rw [shape] at taken
  simp only [List.cons_append, List.append_assoc, List.length_cons, List.length_append, List.nil_append,
    List.length_nil] at taken
  exact taken.trans (by omega)

-- The mark goes unnoticed: the token stands for the same, and leads to the same state.
theorem shift_continued {gone rest : List Char} {cursor : Cursor}
    (stands : grammar.Stands state cursor token gone rest before later) (quoted : token.kind = .quoted)
    (content : inner token.text = left ++ right) (apart : ¬ Straddles left right) :
    before.shift ⟨.quoted, '"' :: (left ++ (['\\', '\r', '\n'] ++ (right ++ ['"']))), token.position, token.offset⟩ =
      some later := by
  have same : inner ('"' :: (left ++ (['\\', '\r', '\n'] ++ (right ++ ['"'])))) =
      left ++ (['\\', '\r', '\n'] ++ right) := by
    rw [← List.append_assoc, ← List.append_assoc, ← List.append_assoc, List.append_assoc left, inner, List.drop_one,
      List.tail_cons, List.dropLast_concat]
  have moved : before.shift ⟨.quoted, token.text, token.position, token.offset⟩ = some later := by
    rw [← quoted]
    exact stands.shifted
  rw [← moved]
  refine shift_quoted ?_
  rw [same, content, joinContinued_insert apart]

theorem reads_continued {gone rest : List Char} {cursor : Cursor} {place : Position} {offset : Nat}
    {result : List Placed} (stands : grammar.Stands state cursor token gone rest before later)
    (quoted : token.kind = .quoted) (content : inner token.text = left ++ right) (outside : openEscape left = false)
    (apart : ¬ Straddles left right) (reads : grammar.Reads later ⟨rest, place, offset⟩ result) :
    ∃ other, grammar.Reads before
        ⟨'"' :: (left ++ (['\\', '\r', '\n'] ++ (right ++ '"' :: rest))), token.position, token.offset⟩ other ∧
      other.map Placed.statement = result.map Placed.statement := by
  obtain ⟨count, length, found⟩ := stands.found
  rw [quoted] at found
  have expected : before.stage.expects .quoted = true := by
    have looked := firstMatch_looked found
    exact looked
  have taken := quoted_goes (Nat.succ_ne_zero _) (quoted_stands stands quoted content).2 outside
  let word := '"' :: (left ++ (['\\', '\r', '\n'] ++ (right ++ ['"'])))
  have whole : '"' :: (left ++ (['\\', '\r', '\n'] ++ (right ++ '"' :: rest))) = word ++ rest := by simp [word]
  have long : 1 + left.length + 3 + right.length + 1 = word.length := by
    simp only [word, List.length_cons, List.length_append, List.length_nil]
    omega
  have goes : grammar.match? before (word ++ rest) = some (.quoted, 1 + left.length + 3 + right.length) := by
    rw [← whole]
    exact match_quoted expected taken
  obtain ⟨other, reads, same⟩ := reads.leads respects later
    ⟨rest, token.position.advance word, token.offset + word.length⟩ rfl rfl
  refine ⟨other, ?_, same⟩
  rw [whole]
  exact (Grammar.reads_take_iff long goes rfl (shift_continued stands quoted content apart)).2 reads

theorem inserted_inside {source : String} {gone rest : List Char} (text : source.toList = gone ++ (token.text ++ rest))
    (offset : token.offset = gone.length) (shape : token.text = '"' :: (left ++ (right ++ ['"']))) (piece : List Char) :
    (inserted source (token.offset + 1 + left.length) piece).toList =
      gone ++ '"' :: (left ++ (piece ++ (right ++ '"' :: rest))) := by
  have text : source.toList = (gone ++ '"' :: left) ++ (right ++ '"' :: rest) := by
    rw [text, shape]
    simp
  have place : token.offset + 1 + left.length = (gone ++ '"' :: left).length := by
    rw [offset, List.length_append, List.length_cons]
    omega
  rw [inserted, String.toList_ofList, place, text, List.take_left, List.drop_left]
  simp

-- Inside the quotes, but not behind the backslash of an escape pair.
theorem parse_continued {source : String} {document : Document} (parsed : parse source = .ok document)
    (listed : token ∈ tokens source.toList) (quoted : token.kind = .quoted) (content : inner token.text = left ++ right)
    (outside : openEscape left = false) :
    (∃ failure, parse (inserted source (token.offset + 1 + left.length) ['\\', '\n']) = .error failure) ∧
      (¬ Straddles left right →
        ∃ placed, parse (inserted source (token.offset + 1 + left.length) ['\\', '\r', '\n']) = .ok ⟨.dot, placed⟩ ∧
          placed.map Placed.statement = document.statements.map Placed.statement) := by
  obtain ⟨result, rfl, reads⟩ := parse_ok parsed
  obtain ⟨gone, rest, before, later, stands⟩ := reads.stands fits listed
  obtain ⟨shape, taken⟩ := quoted_stands stands quoted content
  have head : token.text.head? = some '"' := by rw [shape]; rfl
  have whole := inserted_inside stands.text (stands.offset.trans (Nat.zero_add _)) shape
  refine ⟨parse_error ?_, fun apart => ?_⟩
  · intro other reads
    rw [whole] at reads
    exact unread_quote (quoted_refused (Nat.succ_ne_zero _) taken outside _) ((stands.before_iff steady head _).1 reads)
  · have behind := (stands.behind_iff steady stands.found).1 (by rw [← stands.text]; exact reads)
    obtain ⟨other, reads, same⟩ := reads_continued stands quoted content outside apart behind
    have goes := (stands.before_iff steady head _).2 reads
    refine ⟨other, ?_, same⟩
    rw [parse, whole, Grammar.parse_ok_iff.2 goes]

-- Behind an escaped quote.
theorem parse_continued_escaped :
    let source := "digraph\x7b\"a\\\"b\"\x7d"
    let document : Document := ⟨.dot, [⟨⟨1, 1⟩, .graphOpen true false none⟩,
      ⟨⟨1, 9⟩, .nodeStatement ⟨"a\"b", none⟩ Table.empty⟩, ⟨⟨1, 15⟩, .scopeClose [] [] Table.empty⟩]⟩
    let token : Token Kind := ⟨.quoted, "\"a\\\"b\"".toList, ⟨1, 9⟩, 8⟩
    parse source = .ok document ∧ token ∈ tokens source.toList ∧
      inner token.text = ['a', '\\', '"'] ++ ['b'] ∧ openEscape ['a', '\\', '"'] = false ∧
      ¬ Straddles ['a', '\\', '"'] ['b'] ∧ (∃ failure, parse (inserted source 12 ['\\', '\n']) = .error failure) ∧
      ∃ placed, parse (inserted source 12 ['\\', '\r', '\n']) = .ok ⟨.dot, placed⟩ ∧
        placed.map Placed.statement = document.statements.map Placed.statement := by
  intro source document token
  have parsed : parse source = .ok document := ok_of_toOption (by decide +kernel)
  have listed : token ∈ tokens source.toList := by decide +kernel
  have apart : ¬ Straddles ['a', '\\', '"'] ['b'] := not_straddles (by decide)
  obtain ⟨refused, read⟩ := @parse_continued ['a', '\\', '"'] ['b'] token source document parsed listed rfl rfl rfl
  exact ⟨parsed, listed, rfl, rfl, apart, refused, read apart⟩

-- Two letters are parted by the end of a line, and a mark that follows another backslash is cut by a second one.
theorem parse_continued_breaks :
    let plain := "digraph\x7b\"ab\"\x7d"
    let joined := "digraph\x7b\"\\\\\nb\"\x7d"
    ((parse plain).toOption.isSome = true ∧
      (⟨.quoted, "\"ab\"".toList, ⟨1, 9⟩, 8⟩ : Token Kind) ∈ tokens plain.toList ∧
      (parse (inserted plain 10 ['\\', '\n'])).toOption = none) ∧
    (⟨.quoted, "\"\\\\\nb\"".toList, ⟨1, 9⟩, 8⟩ : Token Kind) ∈ tokens joined.toList ∧
    (parse joined).toOption = some ⟨.dot, [⟨⟨1, 1⟩, .graphOpen true false none⟩,
      ⟨⟨1, 9⟩, .nodeStatement ⟨"\\b", none⟩ Table.empty⟩, ⟨⟨2, 3⟩, .scopeClose [] [] Table.empty⟩]⟩ ∧
    (parse (inserted joined 11 ['\\', '\r', '\n'])).toOption = some ⟨.dot, [⟨⟨1, 1⟩, .graphOpen true false none⟩,
      ⟨⟨1, 9⟩, .nodeStatement ⟨"\\\\\nb", none⟩ Table.empty⟩, ⟨⟨3, 3⟩, .scopeClose [] [] Table.empty⟩]⟩ := by
  decide +kernel

end DiagramStream.Dot
