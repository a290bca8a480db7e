import Mathlib.Data.List.Basic
import DiagramStream.Proofs.Dot.Header

/-!
Telling a graph text by its head. Main statement: a text that is read as a graph begins with a head, and if that is
a plain one, the text is told for a graph and read as one without being asked.
-/

namespace DiagramStream.Dot
open Text Scan

-- Names a head may have to be plain: words, quoted texts without a quote, and numbers without a sign.
structure PlainName (word : Word Kind) : Prop where
  named : word.kind ≠ .html
  unsigned : word.text.head? ≠ some '-'
  whole : word.kind = .quoted → '"' ∉ inner word.text

def lastLine (text : List Char) : List Char := (text.reverse.takeWhile (· != '\n')).reverse

-- The first word begins a line, and nothing but blanks stands between the words.
structure Head.Plain (head : Head) : Prop where
  fresh : ∀ word, head.words.head? = some word → ∀ c ∈ lastLine word.gap, isBlank c = true
  close : ∀ word ∈ head.words.tail, ∀ c ∈ word.gap, isBlank c = true
  name : ∀ word, head.name = some word → PlainName word

-- What the words of a head are made of

variable {word behind text keyword : List Char}

theorem anyCase_taken (applies : Rule.anyCase keyword (word ++ behind) ≠ 0)
    (taken : (word ++ behind).take (Rule.anyCase keyword (word ++ behind)) = word) :
    word.map foldLetter = keyword ∧ atWordEnd behind = true := by
  unfold Rule.anyCase at applies taken
  split at applies
  · rename_i found
    rw [if_pos found] at taken
    obtain ⟨folded, ended⟩ := Bool.and_eq_true_iff.1 found
    rw [taken] at folded
    have same : word.map foldLetter = keyword := by simpa using folded
    refine ⟨same, ?_⟩
    have length : keyword.length = word.length := by rw [← same, List.length_map]
    rwa [length, List.drop_left] at ended
  · exact absurd rfl applies

def isFigure (c : Char) : Bool := isDecimal c || c == '.'

theorem figures_fraction {c : Char} (member : c ∈ ('.' :: text).take (1 + decimalLength text)) : isFigure c = true := by
  rw [Nat.add_comm, List.take_succ_cons, decimalLength, Rule.take_takeWhile] at member
  rcases List.mem_cons.1 member with rfl | digit
  · rfl
  · simp [isFigure, Rule.mem_takeWhile digit]

theorem figures_unsigned {c : Char} (member : c ∈ text.take (unsignedLength text)) : isFigure c = true := by
  have whole {c : Char} (member : c ∈ text.take (decimalLength text)) : isFigure c = true := by
    rw [decimalLength, Rule.take_takeWhile] at member
    simp [isFigure, Rule.mem_takeWhile member]
  unfold unsignedLength at member
  split at member
  · split at member
    · cases member
    · exact figures_fraction member
  · dsimp only at member
    split at member
    · cases member
    · split at member
      · rename_i point
        rw [Nat.add_assoc, List.take_add, point] at member
        rcases List.mem_append.1 member with first | later
        · exact whole first
        · exact figures_fraction later
      · exact whole member

theorem numeralRule_unsigned (unsigned : text.head? ≠ some '-') : numeralRule text = unsignedLength text := by
  unfold numeralRule
  split
  · exact absurd rfl unsigned
  · rfl

theorem head?_taken {count : Nat} (applies : count ≠ 0) (taken : text.take count = word) : word.head? = text.head? := by
  obtain ⟨more, rfl⟩ := Nat.exists_eq_succ_of_ne_zero applies
  cases text <;> simp [← taken]

theorem figures_numeral (applies : numeralRule text ≠ 0) (taken : text.take (numeralRule text) = word)
    (unsigned : word.head? ≠ some '-') : ∀ c ∈ word, isFigure c = true := by
  rw [head?_taken applies taken] at unsigned
  rw [numeralRule_unsigned unsigned] at taken
  intro c member
  exact figures_unsigned (taken ▸ member)

theorem quotedLength_shape {escaped : Bool} {count : Nat} (applies : quotedLength escaped count text ≠ 0) :
    ∃ body behind, text = body ++ '"' :: behind ∧ quotedLength escaped count text = count + body.length + 1 := by
  induction text generalizing escaped count with
  | nil => exact absurd rfl applies
  | cons c text ih =>
    have further {escaped : Bool} (applies : quotedLength escaped (count + 1) text ≠ 0) :
        ∃ body behind, c :: text = body ++ '"' :: behind ∧
          quotedLength escaped (count + 1) text = count + body.length + 1 := by
      obtain ⟨body, behind, rfl, length⟩ := ih applies
      exact ⟨c :: body, behind, rfl, by rw [length, List.length_cons]; omega⟩
    unfold quotedLength at applies ⊢
    split at applies
    · rename_i escape
      rw [if_pos escape]
      split at applies
      · exact absurd rfl applies
      · rw [if_neg ‹_›]
        exact further applies
    · rename_i escape
      rw [if_neg escape]
      split at applies
      · rw [if_pos ‹_›]
        exact further applies
      · rw [if_neg ‹_›]
        split at applies
        · rename_i quote
          exact ⟨[], text, by rw [quote]; rfl, by rw [if_pos quote]; rfl⟩
        · rw [if_neg ‹_›]
          exact further applies

theorem quoted_taken (applies : quotedRule text ≠ 0) (taken : text.take (quotedRule text) = word) :
    word = '"' :: (inner word ++ ['"']) := by
  obtain ⟨rest, rfl⟩ : ∃ rest, text = '"' :: rest := by
    unfold quotedRule at applies
    split at applies
    · exact ⟨_, rfl⟩
    · exact absurd rfl applies
  obtain ⟨body, behind, rfl, length⟩ := quotedLength_shape applies
  have count : quotedRule ('"' :: (body ++ '"' :: behind)) = (body ++ ['"']).length + 1 := by
    rw [List.length_append, List.length_singleton, Nat.add_comm]
    exact length.trans (by omega)
  have shape : word = '"' :: (body ++ ['"']) := by
    rw [← taken, count, List.take_succ_cons, List.append_cons body '"' behind, List.take_left]
  rw [shape]
  simp [inner]

-- What a name consists of in the end: word characters and points, or anything but a quote between two of them.
theorem plainName_shape {name : Word Kind} (plain : PlainName name) (id : name.kind.isId = true)
    (taken : Takes rules name.kind text name.text) :
    (∀ c ∈ name.text, (isWord c || c == '.') = true) ∨ ∃ body, '"' ∉ body ∧ name.text = '"' :: (body ++ ['"']) := by
  obtain ⟨rule, listed, applies, taken⟩ := taken
  cases kind : name.kind with
  | html => exact absurd kind plain.named
  | numeral =>
    obtain rfl : rule = numeralRule := by simpa [rules, kind] using listed
    refine .inl fun c member => ?_
    rcases Bool.or_eq_true_iff.1 (figures_numeral applies taken plain.unsigned c member) with digit | point
    · simp [isDecimal_isWord digit]
    · simp [point]
  | quoted =>
    obtain rfl : rule = quotedRule := by simpa [rules, kind] using listed
    exact .inr ⟨_, plain.whole kind, quoted_taken applies taken⟩
  | word =>
    obtain rfl : rule = Rule.word := by simpa [rules, kind] using listed
    refine .inl fun c member => ?_
    simp [Rule.word_take (taken ▸ member)]
  | _ =>
    rw [kind] at id
    cases id

theorem keyword_taken {kind : Kind} (only : ∀ rule, (kind, rule) ∈ rules → rule = .anyCase keyword)
    (taken : Takes rules kind (word ++ behind) word) : word.map foldLetter = keyword ∧ atWordEnd behind = true := by
  obtain ⟨rule, listed, applies, taken⟩ := taken
  obtain rfl := only rule listed
  exact anyCase_taken applies taken

-- The word that says whether the edges of the graph have a direction.
theorem graph_taken {graph : Word Kind} (kind : graph.kind = .graph ∨ graph.kind = .digraph)
    (taken : Takes rules graph.kind (graph.text ++ behind) graph.text) :
    (graph.text.map foldLetter = "graph".toList ∨ graph.text.map foldLetter = "digraph".toList) ∧
      atWordEnd behind = true := by
  rcases kind with kind | kind <;> rw [kind] at taken
  · obtain ⟨folded, ended⟩ := keyword_taken (fun rule listed => by simpa [rules] using listed) taken
    exact ⟨.inl folded, ended⟩
  · obtain ⟨folded, ended⟩ := keyword_taken (fun rule listed => by simpa [rules] using listed) taken
    exact ⟨.inr folded, ended⟩

theorem brace_taken (taken : Takes rules .leftBrace (word ++ behind) word) : word = ['\x7b'] := by
  obtain ⟨rule, listed, applies, taken⟩ := taken
  obtain rfl : rule = .literal ['\x7b'] := by simpa [rules] using listed
  exact taken.symm.trans (Rule.literal_take applies)

end DiagramStream.Dot

namespace DiagramStream.Conversion
open Text Scan

variable {text gap word behind : List Char}

theorem skipBlanks_gap (blank : ∀ c ∈ gap, isBlank c = true) (text : List Char) :
    skipBlanks (gap ++ text) = skipBlanks text := List.dropWhile_append_of_pos blank

theorem skipBlanks_seen {c : Char} (seen : isBlank c = false) (text : List Char) :
    skipBlanks (c :: text) = c :: text :=
  List.dropWhile_cons_of_neg (by simp [seen])

-- The first letter of a keyword in any case.
theorem folded_head {letter : Char} {keyword : List Char} (folded : word.map foldLetter = letter :: keyword)
    (known : isWord letter = true) : ∃ c rest, word = c :: rest ∧ foldLetter c = letter ∧ isWord c = true := by
  obtain ⟨c, rest, spelled, first, -⟩ := List.map_eq_cons_iff.1 folded
  exact ⟨c, rest, spelled, first, isWord_of_folded (first ▸ known)⟩

theorem skipBlanks_word {c : Char} (letter : isWord c = true) (text : List Char) :
    skipBlanks (c :: text) = c :: text := by
  refine skipBlanks_seen (Bool.eq_false_iff.2 fun blank => ?_) text
  rw [isBlank_not_isWord blank] at letter
  cases letter

theorem dropFolded?_hit {keyword : List Char} (folded : word.map foldLetter = keyword) (behind : List Char) :
    dropFolded? keyword (word ++ behind) = some behind := by
  have length : keyword.length = word.length := by rw [← folded, List.length_map]
  rw [dropFolded?, length, List.take_left, List.drop_left, if_pos folded]

theorem dropFolded?_miss {c letter : Char} (other : foldLetter c ≠ letter) (keyword text : List Char) :
    dropFolded? (letter :: keyword) (c :: text) = none := by
  simp [dropFolded?, other]

-- The brace is all that is left, but for blanks.
def AtBrace (text : List Char) : Prop := (skipBlanks text).head? = some '\x7b'

theorem atBrace_stop (brace : AtBrace text) : text.dropWhile (fun c => isWord c || c == '.') = text := by
  cases text with
  | nil => rfl
  | cons c text =>
    refine List.dropWhile_cons_of_neg ?_
    cases blank : isBlank c with
    | true =>
      have point : c ≠ '.' := by
        rintro rfl
        cases blank
      simp [isBlank_not_isWord blank, point]
    | false =>
      rw [AtBrace, skipBlanks_seen blank] at brace
      cases brace
      decide

theorem skipName_none (brace : AtBrace text) : AtBrace (skipName (skipBlanks text)) := by
  cases skipped : skipBlanks text with
  | nil => simp [AtBrace, skipped] at brace
  | cons c rest =>
    obtain rfl : c = '\x7b' := by simpa [AtBrace, skipped] using brace
    have stop : skipName ('\x7b' :: rest) = '\x7b' :: rest := by
      rw [skipName, List.dropWhile_cons_of_neg (by decide)]
      simp
    rw [AtBrace, stop, skipBlanks_seen rfl]
    rfl

theorem skipName_quoted {body : List Char} (whole : '"' ∉ body) (behind : List Char) :
    skipName ('"' :: (body ++ '"' :: behind)) = behind := by
  have inside (c : Char) (member : c ∈ body) : (c != '"') = true := by
    refine bne_iff_ne.2 ?_
    rintro rfl
    exact whole member
  have stop : (body ++ '"' :: behind).dropWhile (· != '"') = '"' :: behind := by
    rw [List.dropWhile_append_of_pos inside]
    exact List.dropWhile_cons_of_neg (by decide)
  simp only [skipName, stop]

theorem skipName_found {name : Word Dot.Kind} (plain : Dot.PlainName name) (id : name.kind.isId = true)
    (taken : Takes Dot.rules name.kind (name.text ++ behind) name.text) (brace : AtBrace behind) :
    AtBrace (skipName (skipBlanks (name.text ++ behind))) := by
  rcases Dot.plainName_shape plain id taken with letters | ⟨body, whole, shape⟩
  · cases spelled : name.text with
    | nil => exact skipName_none brace
    | cons c rest =>
      rw [spelled] at letters
      have first := letters c List.mem_cons_self
      have seen : isBlank c = false := by
        refine Bool.eq_false_iff.2 fun blank => ?_
        obtain rfl : c = '.' := by simpa [isBlank_not_isWord blank] using first
        cases blank
      have bare : c ≠ '"' := by
        rintro rfl
        cases first
      have stop : skipName (c :: (rest ++ behind)) = behind := by
        unfold skipName
        split
        · rename_i quote
          exact absurd (List.cons.inj quote).1 bare
        · rw [← List.cons_append, List.dropWhile_append_of_pos letters, atBrace_stop brace]
      rwa [List.cons_append, skipBlanks_seen seen, stop]
  · have stop : skipName ('"' :: (body ++ '"' :: behind)) = behind := skipName_quoted whole behind
    rw [shape, List.cons_append, List.append_assoc, List.singleton_append, skipBlanks_seen rfl, stop]
    exact brace

-- From the word for a graph to the brace.
theorem brace_reached {name : Option (Word Dot.Kind)} {brace : Word Dot.Kind} {rest : List Char}
    (spelled : Dot.grammar.Spelled (name.toList ++ [brace]) text rest)
    (close : ∀ word ∈ name.toList ++ [brace], ∀ c ∈ word.gap, isBlank c = true) (kind : brace.kind = .leftBrace)
    (named : ∀ word, name = some word → word.kind.isId = true ∧ Dot.PlainName word) :
    AtBrace (skipName (skipBlanks text)) := by
  have last {text : List Char} (spelled : Dot.grammar.Spelled [brace] text rest) : AtBrace text := by
    cases spelled with
    | cons _ _ taken none =>
      cases none
      rw [kind] at taken
      rw [AtBrace, skipBlanks_gap (close brace (by simp)), Dot.brace_taken taken, List.singleton_append,
        skipBlanks_seen rfl]
      rfl
  cases name with
  | none => exact skipName_none (last spelled)
  | some name =>
    cases spelled with
    | cons _ _ taken others =>
      obtain ⟨id, plain⟩ := named name rfl
      rw [skipBlanks_gap (close name (by simp))]
      exact skipName_found plain id taken (last others)

theorem graph_reached {graph : Word Dot.Kind} (kind : graph.kind = .graph ∨ graph.kind = .digraph)
    (taken : Takes Dot.rules graph.kind (graph.text ++ behind) graph.text)
    (brace : AtBrace (skipName (skipBlanks behind))) (start : skipStrict (skipBlanks text) = graph.text ++ behind) :
    beginsGraph text = true := by
  have found (word : List Char) (folded : word.map foldLetter = "graph".toList) (ended : atWordEnd behind = true)
      (same : (dropFolded? "di".toList (graph.text ++ behind)).getD (graph.text ++ behind) = word ++ behind) :
      beginsGraph text = true := by
    unfold beginsGraph
    simp only [start, same, dropFolded?_hit folded behind, ended, Bool.true_and]
    exact decide_eq_true brace
  obtain ⟨folded, ended⟩ := Dot.graph_taken kind taken
  rcases folded with folded | folded
  · refine found graph.text folded ended ?_
    obtain ⟨c, rest, spelled, first, -⟩ := List.map_eq_cons_iff.1 folded
    have miss : dropFolded? "di".toList (c :: (rest ++ behind)) = none := dropFolded?_miss (by rw [first]; decide) _ _
    rw [spelled, List.cons_append, miss]
    rfl
  · have whole : graph.text = graph.text.take 2 ++ graph.text.drop 2 := (List.take_append_drop ..).symm
    have first : (graph.text.take 2).map foldLetter = "di".toList := by rw [List.map_take, folded]; rfl
    have second : (graph.text.drop 2).map foldLetter = "graph".toList := by rw [List.map_drop, folded]; rfl
    refine found (graph.text.drop 2) second ended ?_
    rw [whole, List.append_assoc, dropFolded?_hit first]
    simp

-- `strict` is skipped with the blanks behind it, and nothing else is.
theorem strict_skipped {strict : List Char} (folded : strict.map foldLetter = "strict".toList)
    (blank : ∀ c ∈ gap, isBlank c = true) (some : gap ≠ []) (text : List Char) :
    skipStrict (strict ++ (gap ++ text)) = skipBlanks text := by
  obtain ⟨c, gap, rfl⟩ := List.exists_cons_of_ne_nil some
  unfold skipStrict
  rw [dropFolded?_hit folded, List.cons_append]
  dsimp only
  rw [if_pos (blank c List.mem_cons_self), skipBlanks_gap fun c member => blank c (List.mem_cons_of_mem _ member)]

theorem strict_missed {c : Char} (other : foldLetter c ≠ 's') (text : List Char) :
    skipStrict (c :: text) = c :: text := by
  have miss : dropFolded? "strict".toList (c :: text) = none := dropFolded?_miss other _ _
  rw [skipStrict, miss]

-- What stands behind a gap, with the last line of the gap before it.
theorem line_cut (gap text : List Char) :
    ∃ above, gap ++ text = above ++ (Dot.lastLine gap ++ text) ∧ above.getLast?.elim true (· == '\n') = true := by
  refine ⟨(gap.reverse.dropWhile (· != '\n')).reverse, ?_, ?_⟩
  · rw [← List.append_assoc, Dot.lastLine, ← List.reverse_append, List.takeWhile_append_dropWhile,
      List.reverse_reverse]
  · rw [List.getLast?_reverse]
    have stop := List.head?_dropWhile_not (fun c : Char => c != '\n') gap.reverse
    cases first : (gap.reverse.dropWhile (· != '\n')).head? with
    | none => rfl
    | some c =>
      rw [first] at stop
      simpa using stop

theorem graph_head {graph : Word Dot.Kind} (kind : graph.kind = .graph ∨ graph.kind = .digraph)
    (taken : Takes Dot.rules graph.kind (graph.text ++ behind) graph.text) :
    ∃ c rest, graph.text = c :: rest ∧ foldLetter c ≠ 's' ∧ isWord c = true := by
  rcases (Dot.graph_taken kind taken).1 with folded | folded
  · obtain ⟨c, rest, spelled, first, letter⟩ := folded_head folded rfl
    exact ⟨c, rest, spelled, by rw [first]; decide, letter⟩
  · obtain ⟨c, rest, spelled, first, letter⟩ := folded_head folded rfl
    exact ⟨c, rest, spelled, by rw [first]; decide, letter⟩

-- The line on which a plain head begins.
theorem beginsGraph_head {head : Dot.Head} (opens : head.Opens text) (plain : head.Plain) :
    ∃ above line, text = above ++ line ∧ above.getLast?.elim true (· == '\n') = true ∧ beginsGraph line = true := by
  obtain ⟨strict, graph, name, brace⟩ := head
  obtain ⟨rest, spelled⟩ := opens.spelled
  have kind : graph.kind = .graph ∨ graph.kind = .digraph := opens.graph
  have named (word : Word Dot.Kind) (same : name = some word) : word.kind.isId = true ∧ Dot.PlainName word :=
    ⟨opens.name word same, plain.name word same⟩
  cases strict with
  | none =>
    have fresh : ∀ c ∈ Dot.lastLine graph.gap, isBlank c = true := plain.fresh graph rfl
    have close : ∀ word ∈ name.toList ++ [brace], ∀ c ∈ word.gap, isBlank c = true := plain.close
    cases spelled with
    | @cons graph _ behind _ _ taken others =>
      obtain ⟨c, rest, first, other, letter⟩ := graph_head kind taken
      obtain ⟨above, cut, begins⟩ := line_cut graph.gap (graph.text ++ behind)
      refine ⟨above, _, cut, begins, ?_⟩
      refine graph_reached kind taken (brace_reached others close opens.brace named) ?_
      rw [skipBlanks_gap fresh, first, List.cons_append, skipBlanks_word letter, strict_missed other]
  | some strict =>
    have fresh : ∀ c ∈ Dot.lastLine strict.gap, isBlank c = true := plain.fresh strict rfl
    have close : ∀ word ∈ graph :: (name.toList ++ [brace]), ∀ c ∈ word.gap, isBlank c = true := plain.close
    cases spelled with
    | @cons strict _ between _ _ held others =>
      cases others with
      | @cons graph _ behind _ _ taken others =>
        have isStrict : strict.kind = .strict := opens.strict strict rfl
        rw [isStrict] at held
        obtain ⟨folded, ended⟩ := Dot.keyword_taken (fun rule listed => by simpa [Dot.rules] using listed) held
        obtain ⟨c, rest, first, -, letter⟩ := graph_head kind taken
        obtain ⟨s, _, start, -, seen⟩ := folded_head folded rfl
        -- Without a blank between them the two words would be one.
        have apart : graph.gap ≠ [] := by
          intro none
          rw [none, first] at ended
          simp [atWordEnd, letter] at ended
        obtain ⟨above, cut, begins⟩ := line_cut strict.gap (strict.text ++ (graph.gap ++ (graph.text ++ behind)))
        refine ⟨above, _, cut, begins, ?_⟩
        refine graph_reached kind taken
          (brace_reached others (fun word member => close word (List.mem_cons_of_mem _ member)) opens.brace named) ?_
        have skipped : skipBlanks (strict.text ++ (graph.gap ++ (graph.text ++ behind))) =
            strict.text ++ (graph.gap ++ (graph.text ++ behind)) := by rw [start]; exact skipBlanks_word seen _
        rw [skipBlanks_gap fresh, skipped, strict_skipped folded (close graph List.mem_cons_self) apart, first,
          List.cons_append, skipBlanks_word letter]

theorem someLine_behind {test : List Char → Bool} {fresh : Bool} {above line : List Char}
    (begins : above.getLast?.elim fresh (· == '\n') = true) (found : test line = true) :
    someLine test fresh (above ++ line) = true := by
  induction above generalizing fresh with
  | nil =>
    obtain rfl : fresh = true := begins
    cases line with
    | nil => simp [someLine, found]
    | cons => simp [someLine, found]
  | cons c above ih =>
    have later : someLine test (c = '\n') (above ++ line) = true := by
      refine ih ?_
      cases last : above.getLast? <;> simpa [List.getLast?_cons, last] using begins
    simp [someLine, later]

theorem detect_head {text : String} {document : Document} (parsed : Dot.parse text = .ok document) :
    (∃ head : Dot.Head, head.Opens text.toList ∧
        document.statements.head?.map Placed.statement = some head.statement) ∧
      ∀ head : Dot.Head, head.Opens text.toList → head.Plain →
        detect text = .dot ∧ Conversion.document text none = .ok document ∧
          ∀ batching, narrate text none batching = narrate text (some "dot") batching := by
  refine ⟨Dot.parse_head parsed, fun head opens plain => ?_⟩
  obtain ⟨above, line, whole, fresh, found⟩ := beginsGraph_head opens plain
  have told : detect text = .dot := by
    rw [detect, whole, if_pos (someLine_behind fresh found)]
  have chosen : chooseFormat text none = .ok .dot := by rw [← told]; rfl
  have unasked : Conversion.document text none = .ok document := by
    rw [Conversion.document, chosen]
    exact parsed
  have asked : Conversion.document text (some "dot") = .ok document := parsed
  refine ⟨told, unasked, fun batching => ?_⟩
  rw [narrate, narrate, unasked, asked]

-- A remark on the line above, a capital, and a quoted name with a blank in it. Gaps are written piece by piece.
theorem detect_head_remark :
    let text := "# a remark\n Digraph \"b c\"\x7b\x7d"
    let document : Document :=
      ⟨.dot, [⟨⟨2, 2⟩, .graphOpen true false (some "b c")⟩, ⟨⟨2, 16⟩, .scopeClose [] [] Table.empty⟩]⟩
    let head : Dot.Head := ⟨none, ⟨"# a remark".toList ++ (['\n', ' '] ++ []), .digraph, "Digraph".toList⟩,
      some ⟨[' '] ++ [], .quoted, "\"b c\"".toList⟩, ⟨[], .leftBrace, ['\x7b']⟩⟩
    Dot.parse text = .ok document ∧ head.Opens text.toList ∧ head.Plain ∧
      detect text = .dot ∧ Conversion.document text none = .ok document ∧
        ∀ batching, narrate text none batching = narrate text (some "dot") batching := by
  intro text document head
  have parsed : Dot.parse text = .ok document := ok_of_toOption (by decide +kernel)
  have split : text.toList = ("# a remark".toList ++ (['\n', ' '] ++ [])) ++ ("Digraph".toList ++ (([' '] ++ []) ++
      ("\"b c\"".toList ++ (([] : List Char) ++ (['\x7b'] ++ ['\x7d']))))) := by decide
  have spelled : Dot.grammar.Spelled head.words text.toList ['\x7d'] := by
    rw [split]
    refine .cons head.graph ?_ (.at 1 rfl (by decide) (by decide)) ?_
    · exact .piece .hashComment rfl (.at 13 rfl (by decide) (by decide))
        (.piece .blank rfl (.at 10 rfl (by decide) (by decide)) .nothing)
    refine .cons ⟨[' '] ++ [], Dot.Kind.quoted, "\"b c\"".toList⟩ ?_ (.at 9 rfl (by decide) (by decide)) ?_
    · exact .piece .blank rfl (.at 10 rfl (by decide) (by decide)) .nothing
    exact .cons head.brace .nothing (.at 18 rfl (by decide) (by decide)) .nil
  have opens : head.Opens text.toList := by
    refine ⟨?_, .inr rfl, ?_, rfl, _, spelled⟩
    · rintro word ⟨⟩
    · rintro word ⟨⟩
      rfl
  have close : (head.words.tail.all fun word => word.gap.all isBlank) = true := by decide
  have plain : head.Plain := by
    refine ⟨?_, by simpa only [List.all_eq_true] using close, ?_⟩
    · rintro word ⟨⟩
      exact List.all_eq_true.1 (by decide)
    · rintro word ⟨⟩
      exact ⟨by decide, by decide, fun _ => by decide⟩
  exact ⟨parsed, opens, plain, (detect_head parsed).2 head opens plain⟩

-- Quotes that are escaped, the other forms of a name, and remarks beside the words all go unnoticed.
theorem detect_overlooks :
    ["digraph \"a\\\"b\" \x7b\x7d", "digraph <a> \x7b\x7d", "graph -1 \x7b\x7d", "digraph /* a */ \x7b\x7d",
        "/* a */ digraph \x7b\x7d"].Forall fun text =>
      (∃ document, Dot.parse text = .ok document) ∧ detect text = .sequence ∧
        ∃ failure, Conversion.document text none = .error failure := by
  have read : ∀ text ∈ ["digraph \"a\\\"b\" \x7b\x7d", "digraph <a> \x7b\x7d", "graph -1 \x7b\x7d",
      "digraph /* a */ \x7b\x7d", "/* a */ digraph \x7b\x7d"],
      (Dot.parse text).toOption.isSome = true ∧ detect text = .sequence ∧
        (Conversion.document text none).toOption = none := by
    decide +kernel
  refine List.forall_iff_forall_mem.2 fun text listed => ?_
  obtain ⟨parsed, told, refused⟩ := read text listed
  refine ⟨?_, told, ?_⟩
  · obtain ⟨document, same⟩ := Option.isSome_iff_exists.1 parsed
    exact ⟨document, ok_of_toOption same⟩
  · cases outcome : Conversion.document text none with
    | error failure => exact ⟨failure, rfl⟩
    | ok document => simp [outcome, Except.toOption] at refused

end DiagramStream.Conversion
