import DiagramStream.Proofs.Dot.Canonical
import DiagramStream.Proofs.Table

/-!
Graph statements written and read again. Main statement: what is written of a graph is read as the same statements.
-/

namespace DiagramStream.Dot
open Text Scan

-- The statements so far and the one in hand, wherever they stand.
def State.outline (state : State) : List Statement × Stage := (state.done.map Placed.statement, state.stage)

def Leading (done : List Statement) (stage : Stage) (text : List Char) (all : List Statement) : Prop :=
  grammar.Leads State.outline (List.map Placed.statement) (done, stage) text all

-- The last of the statements so far is in hand still, and whole.
def Begins (done : List Statement) (text : List Char) (all : List Statement) : Prop :=
  ∀ earlier stage last, stage.complete? = some (some last) → earlier ++ [last] = done → Leading earlier stage text all

variable {done all : List Statement} {stage later : Stage} {kind : Kind} {word text : List Char}

-- A state moves on as its stage does.
theorem State.shift_follow {state : State} {token : Token Kind} (followed : state.stage.follow token = some later) :
    ∃ next, state.shift token = some next ∧ next.outline = (state.done.map Placed.statement, later) := by
  simp only [State.shift, followed]
  cases state.stage <;> exact ⟨_, rfl, rfl⟩

theorem State.shift_silent {state : State} {token : Token Kind} (silent : state.stage.follow token = none) :
    state.shift token = state.complete?.bind fun statements =>
      (Stage.begin token).map fun stage => ⟨statements, stage, token.position⟩ := by
  simp only [State.shift, silent]
  cases state.complete? <;> cases Stage.begin token <;> rfl

theorem State.complete?_outline (state : State) : state.complete?.map (List.map Placed.statement) =
    state.stage.complete?.map fun last => state.done.map Placed.statement ++ last.toList := by
  rw [State.complete?, Option.map_map]
  refine congrArg (Option.map · _) (funext fun last => ?_)
  cases last <;> simp

-- Single tokens

theorem leading_step {next : List Statement} (lexes : Lexes kind word text) (expected : stage.expects kind = true)
    (moved : ∀ (state : State) place offset, state.outline = (done, stage) →
      ∃ other, state.shift ⟨kind, word, place, offset⟩ = some other ∧ other.outline = (next, later))
    (rest : Leading next later text all) : Leading done stage (word ++ text) all := by
  obtain ⟨seen, count, length, found⟩ := lexes
  refine Grammar.Leads.word (next, later) length seen ?_ moved rest
  intro state viewed
  obtain ⟨rfl, rfl⟩ := Prod.mk.inj viewed
  exact firstMatch_of_all found (by simp [grammar, expected])

theorem leading_word (kind : Kind) (lexes : Lexes kind word text) (expected : stage.expects kind = true)
    (followed : ∀ place offset, stage.follow ⟨kind, word, place, offset⟩ = some later)
    (rest : Leading done later text all) : Leading done stage (word ++ text) all := by
  refine leading_step lexes expected ?_ rest
  intro state place offset viewed
  obtain ⟨rfl, rfl⟩ := Prod.mk.inj viewed
  exact State.shift_follow (followed place offset)

-- What starts a statement ends the one in hand.
theorem follow_start {last : Statement} (whole : stage.complete? = some (some last))
    (starts : isStatementStart kind = true) :
    stage.expects kind = true ∧ ∀ place offset, stage.follow ⟨kind, word, place, offset⟩ = none := by
  cases stage with
  | opened => exact ⟨starts, fun _ _ => rfl⟩
  | closed =>
    refine ⟨by simp [Stage.expects, starts], fun _ _ => ?_⟩
    cases kind with
    | operator => cases starts
    | _ => rfl
  | assigned => exact ⟨by simp [Stage.expects, afterId, starts], fun _ _ => rfl⟩
  | grouped =>
    refine ⟨by simp [Stage.expects, starts], fun _ _ => ?_⟩
    cases kind with
    | operator | leftBracket => cases starts
    | _ => rfl
  | attrsClosed =>
    refine ⟨by simp [Stage.expects, starts], fun _ _ => ?_⟩
    cases kind with
    | leftBracket => cases starts
    | _ => rfl
  | named site =>
    refine ⟨by simp [Stage.expects, afterId, starts], fun _ _ => ?_⟩
    cases site with
    | group => cases whole
    | head | target =>
      cases kind with
      | colon | equals | operator | leftBracket => cases starts
      | _ => rfl
  | atPort site name port ended =>
    refine ⟨by simp [Stage.expects, afterId, starts], fun _ _ => ?_⟩
    cases site with
    | group => cases whole
    | head | target =>
      cases kind with
      | colon | equals | operator | leftBracket => cases starts
      | _ => cases ended <;> rfl
  | _ => cases whole

theorem begins_word (kind : Kind) (lexes : Lexes kind word text) (starts : isStatementStart kind = true)
    (begun : ∀ place offset, Stage.begin ⟨kind, word, place, offset⟩ = some later)
    (rest : Leading done later text all) : Begins done (word ++ text) all := by
  rintro earlier stage last whole rfl
  obtain ⟨expected, silent⟩ := @follow_start _ _ word _ whole starts
  refine leading_step lexes expected ?_ rest
  intro state place offset viewed
  obtain ⟨rfl, rfl⟩ := Prod.mk.inj viewed
  rw [State.shift_silent (silent place offset), State.complete?, whole, begun]
  exact ⟨_, rfl, by simp [State.outline]⟩

theorem match_gap (state : State) {c : Char} (gap : isGap c = true) (rest : List Char) :
    grammar.match? state (c :: rest) = some (.blank, (rest.takeWhile isGap).length) := by
  refine firstMatch_at 10 rfl rfl ?_ ?_
  · rw [Rule.run, List.takeWhile_cons_of_pos gap]
    rfl
  · intro entry listed _
    have silent : ((rules.take 10).all fun entry => entry.2 (c :: rest) == 0) = true := by
      simp only [isGap, isSpacing, Bool.or_eq_true, beq_iff_eq] at gap
      rcases gap with (((rfl | rfl) | rfl) | rfl) | rfl <;> rfl
    exact beq_iff_eq.1 (List.all_eq_true.1 silent entry listed)

theorem leading_gap {c : Char} (gap : isGap c = true) (rest : Leading done stage text all) :
    Leading done stage (c :: text) all :=
  Grammar.Leads.blank rfl (fun state _ rest _ gap => match_gap state gap rest) gap rest

theorem begins_gap {c : Char} (gap : isGap c = true) (rest : Begins done text all) : Begins done (c :: text) all := by
  intro earlier stage last whole same
  exact leading_gap gap (rest earlier stage last whole same)

theorem begins_nil (done : List Statement) : Begins done [] done := by
  rintro earlier stage last whole rfl
  refine Grammar.Leads.ended ?_
  intro state viewed
  obtain ⟨rfl, rfl⟩ := Prod.mk.inj viewed
  exact ⟨state.done ++ [⟨state.position, last⟩], by simp [grammar, State.complete?, whole], by simp⟩

theorem leading_sign (kind : Kind) {sign : Char}
    (found : firstMatch rules (fun _ => true) (sign :: text) = some (kind, 0)) (seen : kind.ignored = false)
    (expected : stage.expects kind = true)
    (followed : ∀ place offset, stage.follow ⟨kind, [sign], place, offset⟩ = some later)
    (rest : Leading done later text all) : Leading done stage (sign :: text) all :=
  @leading_word _ _ _ _ [sign] _ kind ⟨seen, 0, rfl, found⟩ expected followed rest

theorem begins_sign (kind : Kind) {sign : Char}
    (found : firstMatch rules (fun _ => true) (sign :: text) = some (kind, 0)) (seen : kind.ignored = false)
    (starts : isStatementStart kind = true)
    (begun : ∀ place offset, Stage.begin ⟨kind, [sign], place, offset⟩ = some later)
    (rest : Leading done later text all) : Begins done (sign :: text) all :=
  @begins_word _ _ _ [sign] _ kind ⟨seen, 0, rfl, found⟩ starts begun rest

-- Node references and groups of them

-- A reference has been read as far as its name or its port.
def Stage.atRef (site : Site) (ref : NodeRef) : Stage :=
  match ref.port with
  | none => .named site ref.name
  | some port => .atPort site ref.name port false

theorem leading_quote {name : String} (plain : Plain name) (expected : stage.expects .quoted = true)
    (followed : ∀ place offset, stage.follow ⟨.quoted, quote name, place, offset⟩ = some later)
    (rest : Leading done later text all) : Leading done stage (quote name ++ text) all :=
  leading_word _ (lexes_quote plain text) expected followed rest

theorem leading_port {site : Site} {ref : NodeRef} (plain : ∀ name ∈ refTexts ref, Plain name)
    (rest : Leading done (.atRef site ref) text all) :
    Leading done (.named site ref.name) ((ref.port.elim [] fun port => ':' :: quote port) ++ text) all := by
  obtain ⟨name, port⟩ := ref
  cases port with
  | none => exact rest
  | some port =>
    have text := plain port (by simp [refTexts])
    refine leading_sign .colon rfl rfl rfl (fun _ _ => rfl) ?_
    refine leading_quote text rfl ?_ rest
    intro place offset
    simp [Stage.follow, Stage.atRef, Kind.isId, idText_quote text]

theorem leading_ref {site : Site} {ref : NodeRef} (plain : ∀ name ∈ refTexts ref, Plain name)
    (expected : stage.expects .quoted = true)
    (goes : ∀ word place offset, stage.follow ⟨.quoted, word, place, offset⟩ =
      some (.named site (idText ⟨.quoted, word, place, offset⟩)))
    (rest : Leading done (.atRef site ref) text all) : Leading done stage (writtenRef ref ++ text) all := by
  have name := plain ref.name List.mem_cons_self
  rw [writtenRef, List.append_assoc]
  refine leading_quote name expected ?_ (leading_port plain rest)
  intro place offset
  rw [goes, idText_quote name]

-- A group in its braces with the members so far.
structure Gathers (stage : Stage) (chain : Chain) (members : List NodeRef) : Prop where
  expected : stage.expects .quoted = true ∧ stage.expects .rightBrace = true
  closes : ∀ word place offset,
    stage.follow ⟨.rightBrace, word, place, offset⟩ = some (.grouped (chain.reach members))
  goes : ∀ word place offset, stage.follow ⟨.quoted, word, place, offset⟩ =
    some (.named (.group chain members) (idText ⟨.quoted, word, place, offset⟩))

theorem gathers_member (chain : Chain) (members : List NodeRef) :
    Gathers (.member chain members) chain members := ⟨⟨rfl, rfl⟩, fun _ _ _ => rfl, fun _ _ _ => rfl⟩

theorem gathers_atRef (chain : Chain) (members : List NodeRef) (ref : NodeRef) :
    Gathers (.atRef (.group chain members) ref) chain (members ++ [ref]) := by
  obtain ⟨name, port⟩ := ref
  cases port with
  | none => exact ⟨⟨rfl, rfl⟩, fun _ _ _ => rfl, fun _ _ _ => rfl⟩
  | some port => exact ⟨⟨rfl, rfl⟩, fun _ _ _ => rfl, fun _ _ _ => rfl⟩

theorem leading_members {chain : Chain} {members refs : List NodeRef} (gathers : Gathers stage chain members)
    (plain : ∀ ref ∈ refs, ∀ name ∈ refTexts ref, Plain name)
    (rest : Leading done (.grouped (chain.reach (members ++ refs))) text all) :
    Leading done stage (refs.flatMap (fun ref => ' ' :: writtenRef ref) ++ ' ' :: '\x7d' :: text) all := by
  induction refs generalizing stage members with
  | nil =>
    rw [List.append_nil] at rest
    exact leading_gap rfl (leading_sign .rightBrace rfl rfl gathers.expected.2 (gathers.closes _) rest)
  | cons ref refs ih =>
    obtain ⟨here, others⟩ := List.forall_mem_cons.1 plain
    rw [List.append_cons] at rest
    have ended := ih (gathers_atRef chain members ref) others rest
    rw [List.flatMap_cons, List.cons_append, List.cons_append, List.append_assoc]
    exact leading_gap rfl (leading_ref here gathers.expected.1 gathers.goes ended)

-- Chains

-- An operator makes the statement in hand a chain, or a longer one.
structure Joins (stage : Stage) (chain : Chain) : Prop where
  expected : stage.expects .operator = true
  goes : ∀ word place offset, stage.follow ⟨.operator, word, place, offset⟩ =
    some (.operator (chain.join (String.ofList word)))

-- The statement in hand may end here or take attributes.
structure Holds (stage : Stage) (subject : Subject) : Prop where
  complete : stage.complete? = some (some (subject.statement Table.empty))
  expected : stage.expects .leftBracket = true
  goes : ∀ word place offset, stage.follow ⟨.leftBracket, word, place, offset⟩ = some (.attrs subject Table.empty)

theorem joins_closed : Joins .closed ⟨none, [], []⟩ := ⟨rfl, fun _ _ _ => rfl⟩

theorem joins_grouped (chain : Chain) : Joins (.grouped chain) chain := ⟨rfl, fun _ _ _ => rfl⟩

theorem holds_grouped (chain : Chain) : Holds (.grouped chain) (.chain chain) := ⟨rfl, rfl, fun _ _ _ => rfl⟩

theorem joins_atRef {site : Site} {ref : NodeRef} {chain : Chain} (chained : site.chain ref = some chain) :
    Joins (.atRef site ref) chain := by
  obtain ⟨name, port⟩ := ref
  cases site with
  | group => cases chained
  | head | target =>
    cases chained
    cases port with
    | none => exact ⟨rfl, fun _ _ _ => rfl⟩
    | some port => exact ⟨rfl, fun _ _ _ => rfl⟩

theorem holds_atRef {site : Site} {ref : NodeRef} {subject : Subject} (held : site.subject ref = some subject) :
    Holds (.atRef site ref) subject := by
  obtain ⟨name, port⟩ := ref
  cases site with
  | group => cases held
  | head | target =>
    cases held
    cases port with
    | none => exact ⟨rfl, rfl, fun _ _ _ => rfl⟩
    | some port => exact ⟨rfl, rfl, fun _ _ _ => rfl⟩

theorem leading_group {chain : Chain} {group : List NodeRef} (plain : ∀ ref ∈ group, ∀ name ∈ refTexts ref, Plain name)
    (rest : ∀ later, Joins later (chain.reach group) → Holds later (.chain (chain.reach group)) →
      Leading done later text all) :
    Leading done (.operator chain) (writtenGroup group ++ text) all := by
  unfold writtenGroup
  split
  · rename_i ref
    have ended := rest (.atRef (.target chain) ref) (joins_atRef rfl) (holds_atRef rfl)
    exact leading_ref (plain ref List.mem_cons_self) rfl (fun _ _ _ => rfl) ended
  · rename_i refs _
    have closed := rest _ (joins_grouped _) (holds_grouped _)
    rw [List.cons_append, List.append_assoc]
    refine leading_sign .leftBrace rfl rfl rfl (fun _ _ => rfl) ?_
    exact leading_members (gathers_member chain []) plain closed

-- One link of a chain, as it may stand in a statement.
def Linked (link : String × List NodeRef) : Prop :=
  (link.1 = "->" ∨ link.1 = "--") ∧ ∀ ref ∈ link.2, ∀ name ∈ refTexts ref, Plain name

theorem leading_link {chain : Chain} {link : String × List NodeRef} (joins : Joins stage chain) (linked : Linked link)
    (rest : ∀ later, Joins later ((chain.join link.1).reach link.2) →
      Holds later (.chain ((chain.join link.1).reach link.2)) → Leading done later text all) :
    Leading done stage (writtenLink link ++ text) all := by
  obtain ⟨known, plain⟩ := linked
  rw [writtenLink, List.cons_append, List.append_assoc, List.cons_append]
  refine leading_gap rfl (leading_word _ (lexes_operator known _) joins.expected (joins.goes _) (leading_gap rfl ?_))
  rw [String.ofList_toList]
  exact leading_group plain rest

def Chain.extend (chain : Chain) (links : List (String × List NodeRef)) : Chain :=
  ⟨chain.head, chain.operators ++ links.map Prod.fst, chain.targets ++ links.map Prod.snd⟩

theorem Chain.extend_cons (chain : Chain) (link : String × List NodeRef) (links : List (String × List NodeRef)) :
    chain.extend (link :: links) = ((chain.join link.1).reach link.2).extend links := by
  simp [extend, join, reach]

theorem leading_links {chain : Chain} {link : String × List NodeRef} {links : List (String × List NodeRef)}
    (joins : Joins stage chain) (linked : ∀ one ∈ link :: links, Linked one)
    (rest : ∀ later, Holds later (.chain (chain.extend (link :: links))) → Leading done later text all) :
    Leading done stage ((link :: links).flatMap writtenLink ++ text) all := by
  induction links generalizing link stage chain with
  | nil =>
    rw [List.flatMap_singleton]
    exact leading_link joins (linked link List.mem_cons_self) fun later _ holds => rest later holds
  | cons next links ih =>
    obtain ⟨here, others⟩ := List.forall_mem_cons.1 linked
    rw [List.flatMap_cons, List.append_assoc]
    refine leading_link joins here ?_
    intro later again _
    refine ih again others ?_
    intro last holds
    exact rest last (by rwa [Chain.extend_cons])

-- Attribute lists

theorem leading_pair {subject : Subject} {sum : Attrs} {entry : String × String} (plain : Plain entry.1 ∧ Plain entry.2)
    (rest : Leading done (.attrValue subject (sum.set entry.1 entry.2)) text all) :
    Leading done (.attrs subject sum) (writtenPair entry ++ text) all := by
  obtain ⟨key, value⟩ := plain
  rw [writtenPair, List.append_assoc, List.cons_append]
  refine @leading_quote _ _ _ (.attrKey subject sum entry.1) _ _ key rfl ?_ ?_
  · intro place offset
    simp [Stage.follow, Kind.isId, idText_quote key]
  refine leading_sign .equals rfl rfl rfl (fun _ _ => rfl) ?_
  refine leading_quote value rfl ?_ rest
  intro place offset
  simp [Stage.follow, Kind.isId, idText_quote value]

theorem leading_pairs {subject : Subject} {sum : Attrs} {entries : List (String × String)}
    (plain : ∀ entry ∈ entries, Plain entry.1 ∧ Plain entry.2)
    (rest : Leading done (.attrsClosed subject (entries.foldl (fun sum entry => sum.set entry.1 entry.2) sum)) text
      all) : Leading done (.attrs subject sum) (writtenPairs entries ++ ']' :: text) all := by
  fun_induction writtenPairs entries generalizing sum with
  | case1 => exact leading_sign .rightBracket rfl rfl rfl (fun _ _ => rfl) rest
  | case2 entry =>
    refine leading_pair (plain entry List.mem_cons_self) ?_
    exact leading_sign .rightBracket rfl rfl rfl (fun _ _ => rfl) rest
  | case3 entry rest' _ ih =>
    obtain ⟨here, others⟩ := List.forall_mem_cons.1 plain
    have ended := ih others rest
    rw [List.append_assoc, List.cons_append, List.cons_append]
    refine leading_pair here ?_
    exact leading_sign .comma rfl rfl rfl (fun _ _ => rfl) (leading_gap rfl ended)

theorem leading_attrs {subject : Subject} {attrs : Attrs} (expected : stage.expects .leftBracket = true)
    (goes : ∀ word place offset, stage.follow ⟨.leftBracket, word, place, offset⟩ = some (.attrs subject Table.empty))
    (plain : ∀ name ∈ pairTexts attrs, Plain name) (rest : Begins (done ++ [subject.statement attrs]) text all) :
    Leading done stage (writtenAttrs attrs ++ text) all := by
  have ended : Leading done (.attrsClosed subject (Table.ofList attrs.entries)) text all := by
    rw [Table.ofList_entries]
    exact rest done _ _ rfl rfl
  rw [writtenAttrs, List.cons_append, List.cons_append, List.append_assoc]
  refine leading_gap rfl (leading_sign .leftBracket rfl rfl expected (goes _) ?_)
  refine leading_pairs ?_ ended
  intro entry listed
  refine ⟨plain _ ?_, plain _ ?_⟩
  · exact List.mem_flatMap.2 ⟨entry, listed, by simp⟩
  · exact List.mem_flatMap.2 ⟨entry, listed, by simp⟩

theorem leading_tail {subject : Subject} {attrs : Attrs} (holds : Holds stage subject)
    (plain : ∀ name ∈ pairTexts attrs, Plain name) (rest : Begins (done ++ [subject.statement attrs]) text all) :
    Leading done stage (writtenTail attrs ++ text) all := by
  unfold writtenTail
  split
  · rename_i none
    have empty : attrs = Table.empty := Table.ext (List.isEmpty_iff.1 none)
    rw [empty] at rest
    exact rest done stage _ holds.complete rfl
  · exact leading_attrs holds.expected holds.goes plain rest

-- Statements

theorem begins_ref {ref : NodeRef} (plain : ∀ name ∈ refTexts ref, Plain name)
    (rest : Leading done (.atRef .head ref) text all) : Begins done (writtenRef ref ++ text) all := by
  have name := plain ref.name List.mem_cons_self
  rw [writtenRef, List.append_assoc]
  refine begins_word _ (lexes_quote name _) rfl ?_ (leading_port plain rest)
  intro place offset
  simp [Stage.begin, Kind.isId, idText_quote name]

theorem leading_chain {head : Option NodeRef} {operators : List String} {groups : List (List NodeRef)} {attrs : Attrs}
    (joins : Joins stage ⟨head, [], []⟩) (linked : operators ≠ []) (paired : groups.length = operators.length)
    (known : ∀ operator ∈ operators, operator = "->" ∨ operator = "--")
    (named : ∀ name ∈ groups.flatten.flatMap refTexts, Plain name) (plain : ∀ name ∈ pairTexts attrs, Plain name)
    (rest : Begins (done ++ [Chain.statement ⟨head, operators, groups⟩ attrs]) text all) :
    Leading done stage ((operators.zip groups).flatMap writtenLink ++ (writtenTail attrs ++ text)) all := by
  have whole : Chain.extend ⟨head, [], []⟩ (operators.zip groups) = ⟨head, operators, groups⟩ := by
    simp [Chain.extend, List.map_fst_zip (Nat.le_of_eq paired.symm), List.map_snd_zip (Nat.le_of_eq paired)]
  have links : ∀ link ∈ operators.zip groups, Linked link := by
    intro link listed
    obtain ⟨operator, group⟩ := List.of_mem_zip listed
    refine ⟨known _ operator, ?_⟩
    intro ref member name listed
    exact named name (List.mem_flatMap.2 ⟨ref, List.mem_flatten.2 ⟨_, group, member⟩, listed⟩)
  cases zipped : operators.zip groups with
  | nil =>
    rcases List.zip_eq_nil_iff.1 zipped with none | none
    · exact absurd none linked
    · rw [none] at paired
      exact absurd (List.length_eq_zero_iff.1 paired.symm) linked
  | cons link rest' =>
    rw [zipped] at whole links
    refine leading_links joins links ?_
    intro later holds
    rw [whole] at holds
    exact leading_tail holds plain rest

-- A scope may be given a name before its brace opens it.
structure Opens (stage : Stage) (named : String → Stage) (opening : Option String → Statement) : Prop where
  expected : stage.expects .quoted = true ∧ stage.expects .leftBrace = true
  bare : ∀ word place offset, stage.follow ⟨.leftBrace, word, place, offset⟩ = some (.opened (opening none))
  goes : ∀ word place offset, stage.follow ⟨.quoted, word, place, offset⟩ =
    some (named (idText ⟨.quoted, word, place, offset⟩))
  closing : ∀ name, (named name).expects .leftBrace = true
  closes : ∀ name word place offset, (named name).follow ⟨.leftBrace, word, place, offset⟩ =
    some (.opened (opening (some name)))

theorem opens_subgraph : Opens .subgraph .subgraphNamed .subgraphOpen :=
  ⟨⟨rfl, rfl⟩, fun _ _ _ => rfl, fun _ _ _ => rfl, fun _ => rfl, fun _ _ _ _ => rfl⟩

theorem opens_graph (strict directed : Bool) :
    Opens (.graph strict directed) (.graphNamed strict directed) (.graphOpen directed strict) :=
  ⟨⟨rfl, rfl⟩, fun _ _ _ => rfl, fun _ _ _ => rfl, fun _ => rfl, fun _ _ _ _ => rfl⟩

theorem leading_opening {named : String → Stage} {opening : Option String → Statement} {name : Option String}
    (opens : Opens stage named opening) (plain : ∀ one ∈ name.toList, Plain one)
    (rest : Leading done (.opened (opening name)) text all) :
    Leading done stage (writtenName name ++ ' ' :: '\x7b' :: text) all := by
  have brace : ∀ {stage}, stage.expects .leftBrace = true →
      (∀ word place offset, stage.follow ⟨.leftBrace, word, place, offset⟩ = some (.opened (opening name))) →
      Leading done stage (' ' :: '\x7b' :: text) all := fun expected followed =>
    leading_gap rfl (leading_sign .leftBrace rfl rfl expected (followed _) rest)
  cases name with
  | none => exact brace opens.expected.2 opens.bare
  | some name =>
    have plain := plain name (by simp)
    refine leading_gap rfl (leading_quote plain opens.expected.1 ?_ (brace (opens.closing name) (opens.closes name)))
    intro place offset
    rw [opens.goes, idText_quote plain]

theorem begins_keyword {target : String} (known : target = "graph" ∨ target = "node" ∨ target = "edge")
    (rest : Leading done (.defaults target) (' ' :: text) all) : Begins done (target.toList ++ ' ' :: text) all := by
  rcases known with rfl | rfl | rfl
  · exact begins_word .graph ⟨rfl, 4, rfl, rfl⟩ rfl (fun _ _ => rfl) rest
  · exact begins_word .node ⟨rfl, 3, rfl, rfl⟩ rfl (fun _ _ => rfl) rest
  · exact begins_word .edge ⟨rfl, 3, rfl, rfl⟩ rfl (fun _ _ => rfl) rest

theorem begins_written {statement : Statement} (shaped : Shaped statement)
    (plain : ∀ name ∈ texts statement, Plain name) (rest : Begins (done ++ [statement]) text all) :
    Begins done (written statement ++ text) all := by
  cases statement with
  | subgraphOpen name =>
    have ended : Leading done (.opened (.subgraphOpen name)) text all := rest done _ _ rfl rfl
    cases name with
    | none =>
      rw [written, writtenScope, Option.elim_none]
      exact begins_sign .leftBrace rfl rfl rfl (fun _ _ => rfl) ended
    | some name =>
      have opened := @leading_opening _ _ _ _ _ _ (some name) opens_subgraph plain ended
      rw [written, writtenScope, Option.elim_some, List.append_assoc, List.append_assoc]
      exact begins_word .subgraph ⟨rfl, 7, rfl, rfl⟩ rfl (fun _ _ => rfl) opened
  | scopeClose endpoints operators attrs =>
    obtain ⟨paired, bare, known⟩ := shaped
    obtain ⟨named, valued⟩ := List.forall_mem_append.1 plain
    rw [written, List.cons_append, List.append_assoc]
    refine begins_sign .rightBrace rfl rfl rfl (fun _ _ => rfl) ?_
    by_cases linked : operators = []
    · have ended := bare linked
      subst linked ended
      obtain rfl := List.length_eq_zero_iff.1 paired
      exact rest done _ _ rfl rfl
    · exact leading_chain joins_closed linked paired known named valued rest
  | nodeStatement node attrs =>
    obtain ⟨named, valued⟩ := List.forall_mem_append.1 plain
    rw [written, List.append_assoc]
    exact begins_ref named (leading_tail (holds_atRef rfl) valued rest)
  | edgeStatement endpoints operators attrs =>
    obtain ⟨single, linked, paired, known⟩ := shaped
    obtain ⟨named, valued⟩ := List.forall_mem_append.1 plain
    obtain ⟨ref, groups, rfl⟩ : ∃ ref groups, endpoints = [ref] :: groups := by
      cases endpoints with
      | nil => cases single
      | cons first groups =>
        obtain ⟨ref, rfl⟩ := List.length_eq_one_iff.1 (Option.some.inj single)
        exact ⟨ref, groups, rfl⟩
    obtain ⟨here, others⟩ := List.forall_mem_append.1 named
    rw [written, List.append_assoc, List.append_assoc]
    exact begins_ref here (leading_chain (joins_atRef rfl) linked (Nat.succ.inj paired) known others valued rest)
  | attrStatement target attrs =>
    rw [written, List.append_assoc]
    exact begins_keyword shaped (leading_attrs rfl (fun _ _ _ => rfl) plain rest)
  | assignment key value =>
    have keyed := plain key (by simp [texts])
    have valued := plain value (by simp [texts])
    have ended : Leading done (.assigned key value) text all := rest done _ _ rfl rfl
    rw [written, writtenPair, List.append_assoc, List.cons_append]
    have follows : Leading done (.named .head key) ('=' :: (quote value ++ text)) all := by
      refine leading_sign .equals rfl rfl rfl (fun _ _ => rfl) (leading_quote valued rfl ?_ ended)
      intro place offset
      simp [Stage.follow, Kind.isId, idText_quote valued]
    refine begins_word _ (lexes_quote keyed _) rfl ?_ follows
    intro place offset
    simp [Stage.begin, Kind.isId, idText_quote keyed]
  | _ => cases shaped

theorem begins_writtenLines {statements : List Statement} (shaped : ∀ statement ∈ statements, Shaped statement)
    (plain : ∀ statement ∈ statements, ∀ name ∈ texts statement, Plain name) :
    Begins done (writtenLines statements) (done ++ statements) := by
  induction statements generalizing done with
  | nil =>
    rw [List.append_nil]
    exact begins_nil done
  | cons statement statements ih =>
    obtain ⟨here, others⟩ := List.forall_mem_cons.1 shaped
    obtain ⟨named, later⟩ := List.forall_mem_cons.1 plain
    have rest := @ih (done ++ [statement]) others later
    rw [writtenLines, List.flatMap_cons, List.append_assoc]
    refine begins_written here named (begins_gap rfl ?_)
    rwa [← List.append_cons] at rest

theorem leading_graph {directed strict : Bool} {name : Option String} (plain : ∀ one ∈ name.toList, Plain one)
    (rest : Begins [.graphOpen directed strict name] text all) :
    Leading [] .start (written (.graphOpen directed strict name) ++ text) all := by
  have ended : Leading [] (.opened (.graphOpen directed strict name)) text all := rest [] _ _ rfl rfl
  have opened := leading_opening (opens_graph strict directed) plain ended
  obtain ⟨more, gap⟩ : ∃ more, writtenName name ++ ' ' :: '\x7b' :: text = ' ' :: more := by
    cases name with
    | none => exact ⟨_, rfl⟩
    | some name => exact ⟨_, rfl⟩
  have keyword : ∀ {stage}, stage.expects .digraph = true → stage.expects .graph = true →
      (∀ word place offset, stage.follow ⟨.digraph, word, place, offset⟩ = some (.graph strict true)) →
      (∀ word place offset, stage.follow ⟨.graph, word, place, offset⟩ = some (.graph strict false)) →
      Leading [] stage ((if directed then "digraph".toList else "graph".toList) ++ ' ' :: more) all := by
    intro stage digraph graph toDigraph toGraph
    rw [gap] at opened
    cases directed with
    | true => exact leading_word .digraph ⟨rfl, 6, rfl, rfl⟩ digraph (toDigraph _) opened
    | false => exact leading_word .graph ⟨rfl, 4, rfl, rfl⟩ graph (toGraph _) opened
  have whole : written (.graphOpen directed strict name) ++ text = (if strict then "strict ".toList else []) ++
      ((if directed then "digraph".toList else "graph".toList) ++ ' ' :: more) := by
    rw [← gap, written, writtenGraph]
    simp only [List.append_assoc, List.cons_append, List.nil_append]
  rw [whole]
  cases strict with
  | false => exact keyword rfl rfl (fun _ _ _ => rfl) (fun _ _ _ => rfl)
  | true =>
    have rest := @keyword .strict rfl rfl (fun _ _ _ => rfl) (fun _ _ _ => rfl)
    exact @leading_word _ _ _ _ "strict".toList _ .strict ⟨rfl, 5, rfl, rfl⟩ rfl (fun _ _ => rfl) (leading_gap rfl rest)

-- No statement runs into the next, whatever the two are.
theorem parse_writtenLines {statements : List Statement} (shaped : ShapedGraph statements)
    (plain : ∀ statement ∈ statements, ∀ name ∈ texts statement, Plain name) :
    ∃ placed, parse (String.ofList (writtenLines statements)) = .ok ⟨.dot, placed⟩ ∧
      placed.map Placed.statement = statements := by
  unfold ShapedGraph at shaped
  split at shaped
  · rename_i directed strict name rest
    obtain ⟨named, plain⟩ := List.forall_mem_cons.1 plain
    have lines : Begins [.graphOpen directed strict name] ('\n' :: writtenLines rest) _ :=
      begins_gap rfl (begins_writtenLines shaped plain)
    have leads := leading_graph named lines
    obtain ⟨placed, reads, same⟩ := leads State.start (Cursor.start _) rfl rfl
    have read := (@Grammar.parse_ok_iff _ _ _ _ .dot _ _).2 reads
    refine ⟨placed, ?_, same⟩
    have text : (String.ofList (writtenLines (.graphOpen directed strict name :: rest))).toList =
        written (.graphOpen directed strict name) ++ '\n' :: writtenLines rest := by
      rw [String.toList_ofList, writtenLines, List.flatMap_cons, List.append_assoc]
      rfl
    rw [parse, text, read]
  · cases shaped

-- Marks of all sorts inside quotes, braces that do not balance, a chain at a closing brace and an empty group before an
-- opening one.
theorem parse_writtenLines_marks :
    let statements : List Statement :=
      [.graphOpen true true (some "graph \x7b"),
       .nodeStatement ⟨"say \"a\"\n// b", some "p:q"⟩ (Table.ofList [("label", "#1"), ("", "<b>")]),
       .edgeStatement [[⟨"node", none⟩], []] ["->"] Table.empty,
       .subgraphOpen none,
       .attrStatement "edge" Table.empty,
       .assignment "k" "->",
       .scopeClose [[⟨"x", none⟩, ⟨"y", some "n"⟩], [⟨"z", none⟩]] ["--", "->"] (Table.ofList [("w", "1")])]
    let text := "strict digraph \"graph \x7b\" \x7b\n\"say \\\"a\\\"\n// b\":\"p:q\" " ++
      "[\"label\"=\"#1\", \"\"=\"<b>\"]\n\"node\" -> \x7b \x7d\n\x7b\nedge []\n\"k\"=\"->\"\n" ++
      "\x7d -- \x7b \"x\" \"y\":\"n\" \x7d -> \"z\" [\"w\"=\"1\"]\n"
    ShapedGraph statements ∧ (∀ statement ∈ statements, ∀ name ∈ texts statement, Plain name) ∧
      ∃ placed, parse text = .ok ⟨.dot, placed⟩ ∧ placed.map Placed.statement = statements := by
  intro statements text
  have shaped : ShapedGraph statements := by
    unfold ShapedGraph
    decide +kernel
  have plain : ∀ statement ∈ statements, ∀ name ∈ texts statement, Plain name := by decide +kernel
  have same : String.ofList (writtenLines statements) = text := by decide +kernel
  refine ⟨shaped, plain, ?_⟩
  rw [← same]
  exact parse_writtenLines shaped plain

end DiagramStream.Dot
