import DiagramStream.Proofs.Dot.Canonical
import DiagramStream.Proofs.Parsing
import DiagramStream.Proofs.Scan.Words

/-!
What every graph text comes to. Main statement: the statements that are read are those of one graph, opened first and
nowhere else, with chains in which every operator joins two groups.
-/

namespace DiagramStream.Dot
open Text Scan

-- Chains

def Chain.Linked (chain : Chain) : Prop := ∀ operator ∈ chain.operators, operator = "->" ∨ operator = "--"

-- The last operator still wants its target.
structure Chain.Pending (chain : Chain) : Prop where
  linked : chain.Linked
  count : chain.operators.length = chain.targets.length + 1

structure Chain.Joined (chain : Chain) : Prop where
  linked : chain.Linked
  some : chain.operators ≠ []
  count : chain.operators.length = chain.targets.length

theorem operator_known {token : Token Kind} (found : token.OfRule rules) (kind : token.kind = .operator) :
    String.ofList token.text = "->" ∨ String.ofList token.text = "--" := by
  obtain ⟨rule, text, listed, applies, taken⟩ := found
  rw [kind] at listed
  obtain rfl : rule = .oneOf [.literal ['-', '>'], .literal ['-', '-']] := by simpa [rules] using listed
  obtain ⟨rule, listed, applies, same⟩ := Rule.oneOf_rule applies
  rw [taken, same]
  rcases List.mem_cons.1 listed with rfl | other
  · exact .inl (by rw [Rule.literal_take applies])
  · obtain rfl := List.mem_singleton.1 other
    exact .inr (by rw [Rule.literal_take applies])

theorem Chain.join_pending {chain : Chain} {operator : String} (linked : chain.Linked)
    (count : chain.operators.length = chain.targets.length) (known : operator = "->" ∨ operator = "--") :
    (chain.join operator).Pending := by
  refine ⟨?_, by simp [Chain.join, count]⟩
  intro other listed
  rcases List.mem_append.1 listed with earlier | last
  · exact linked other earlier
  · exact List.mem_singleton.1 last ▸ known

theorem Chain.reach_joined {chain : Chain} (pending : chain.Pending) (target : List NodeRef) :
    (chain.reach target).Joined := by
  obtain ⟨linked, count⟩ := pending
  refine ⟨linked, ?_, by simp [Chain.reach, count]⟩
  intro none
  change chain.operators = [] at none
  simp [none] at count

theorem Chain.statement_shaped {chain : Chain} (joined : chain.Joined) (attrs : Attrs) :
    Shaped (chain.statement attrs) := by
  obtain ⟨linked, some, count⟩ := joined
  unfold Chain.statement
  split
  · exact ⟨rfl, some, by simp [count], linked⟩
  · exact ⟨count.symm, fun none => absurd none some, linked⟩

-- The statement in hand

def Site.Shaped : Site → Prop
  | .head => True
  | .target chain => chain.Pending
  | .group chain _ => chain.Pending

def Subject.Shaped : Subject → Prop
  | .node _ => True
  | .chain link => link.Joined
  | .defaults target => target = "graph" ∨ target = "node" ∨ target = "edge"

-- Before the brace that opens the graph, and with it in hand.
def Stage.Opening : Stage → Prop
  | .start => True
  | .strict => True
  | .graph .. => True
  | .graphNamed .. => True
  | .opened (.graphOpen ..) => True
  | _ => False

-- Behind it.
def Stage.Shaped : Stage → Prop
  | .start => False
  | .strict => False
  | .graph .. => False
  | .graphNamed .. => False
  | .ready => True
  | .opened statement => Dot.Shaped statement
  | .subgraph => True
  | .subgraphNamed _ => True
  | .closed => True
  | .defaults target => (Subject.defaults target).Shaped
  | .named site _ => site.Shaped
  | .colon site _ _ => site.Shaped
  | .atPort site _ _ _ => site.Shaped
  | .equals _ => True
  | .assigned .. => True
  | .operator chain => chain.Pending
  | .group chain => chain.Pending
  | .groupNamed chain => chain.Pending
  | .member chain _ => chain.Pending
  | .grouped chain => chain.Joined
  | .attrs subject _ => subject.Shaped
  | .attrKey subject _ _ => subject.Shaped
  | .attrEquals subject _ _ => subject.Shaped
  | .attrValue subject _ => subject.Shaped
  | .attrsClosed subject _ => subject.Shaped

variable {site : Site} {ref : NodeRef} {token : Token Kind} {stage later : Stage} {statement : Statement}

theorem Subject.statement_shaped {subject : Subject} (shaped : subject.Shaped) (attrs : Attrs) :
    Dot.Shaped (subject.statement attrs) := by
  cases subject with
  | node => trivial
  | chain => exact Chain.statement_shaped shaped attrs
  | defaults => exact shaped

theorem Site.subject_shaped {subject : Subject} (shaped : site.Shaped) (ended : site.subject ref = some subject) :
    subject.Shaped := by
  cases site with
  | head => cases ended; trivial
  | target => cases ended; exact Chain.reach_joined shaped _
  | group => cases ended

theorem Site.chain_joins {chain : Chain} (shaped : site.Shaped) (ended : site.chain ref = some chain) :
    chain.Linked ∧ chain.operators.length = chain.targets.length := by
  cases site with
  | head =>
    cases ended
    exact ⟨List.forall_mem_nil _, rfl⟩
  | target =>
    cases ended
    have joined := Chain.reach_joined shaped [ref]
    exact ⟨joined.linked, joined.count⟩
  | group => cases ended

theorem Site.follow_shaped (found : token.OfRule rules) (shaped : site.Shaped)
    (followed : site.follow ref token = some later) : later.Shaped := by
  unfold Site.follow at followed
  split at followed
  · dsimp only at followed
    split at followed
    · cases followed; exact shaped
    · cases followed; exact Chain.reach_joined shaped _
    · split at followed <;> cases followed
      exact shaped
  · split at followed
    · obtain ⟨chain, ended, rfl⟩ := Option.map_eq_some_iff.1 followed
      obtain ⟨linked, count⟩ := Site.chain_joins shaped ended
      exact Chain.join_pending linked count (operator_known found ‹_›)
    · obtain ⟨subject, ended, rfl⟩ := Option.map_eq_some_iff.1 followed
      exact Site.subject_shaped shaped ended
    · cases followed

theorem Stage.follow_opening (opening : stage.Opening) (followed : stage.follow token = some later) :
    later.Opening := by
  unfold Stage.follow at followed
  split at followed
  all_goals try split at followed
  all_goals first
    | exact opening.elim
    | (cases followed <;> trivial)

theorem Stage.follow_shaped (found : token.OfRule rules) (shaped : stage.Shaped)
    (followed : stage.follow token = some later) : later.Shaped := by
  unfold Stage.follow at followed
  split at followed
  -- The chain that an operator begins at a closing brace, and the one that it goes on with behind a group.
  case h_12 operator =>
    cases followed
    have nothing : Chain.Linked ⟨none, [], []⟩ := fun _ listed => nomatch listed
    exact Chain.join_pending nothing rfl (operator_known found operator)
  case h_30 operator =>
    cases followed
    exact Chain.join_pending shaped.linked shaped.count (operator_known found operator)
  all_goals try split at followed
  all_goals first
    | exact shaped.elim
    | exact Site.follow_shaped found shaped followed
    | (cases followed <;> first | exact shaped | trivial | exact Chain.reach_joined shaped _)

theorem Stage.begin_shaped (begun : Stage.begin token = some stage) : stage.Shaped := by
  unfold Stage.begin at begun
  repeat' split at begun
  all_goals cases begun
  all_goals simp [Stage.Shaped, Subject.Shaped, Site.Shaped, Dot.Shaped]

theorem Stage.complete_shaped (shaped : stage.Shaped) (whole : stage.complete? = some (some statement)) :
    Dot.Shaped statement := by
  cases stage with
  | opened => cases whole; exact shaped
  | closed => cases whole; exact ⟨rfl, fun _ => rfl, List.forall_mem_nil _⟩
  | assigned => cases whole; trivial
  | grouped chain => cases whole; exact Chain.statement_shaped shaped _
  | attrsClosed subject => cases whole; exact Subject.statement_shaped shaped _
  | named site name =>
    obtain ⟨subject, ended, same⟩ := Option.map_eq_some_iff.1 whole
    cases same
    exact Subject.statement_shaped (Site.subject_shaped shaped ended) _
  | atPort site name port =>
    obtain ⟨subject, ended, same⟩ := Option.map_eq_some_iff.1 whole
    cases same
    exact Subject.statement_shaped (Site.subject_shaped shaped ended) _
  | _ => cases whole

-- Only with the brace that opens it in hand may the text end before anything is done.
theorem Stage.complete_opening {statement? : Option Statement} (opening : stage.Opening)
    (whole : stage.complete? = some statement?) :
    ∃ directed strict name, statement? = some (.graphOpen directed strict name) := by
  unfold Stage.Opening at opening
  split at opening
  case h_5 => exact ⟨_, _, _, (Option.some.inj whole).symm⟩
  all_goals first
    | exact opening.elim
    | cases whole

-- The statements so far

def State.Shaped (state : State) : Prop :=
  (state.done = [] ∧ state.stage.Opening) ∨ (ShapedGraph (state.done.map Placed.statement) ∧ state.stage.Shaped)

theorem shapedGraph_concat {statements : List Statement} (graph : ShapedGraph statements)
    (shaped : Dot.Shaped statement) :
    ShapedGraph (statements ++ [statement]) := by
  unfold ShapedGraph at graph
  split at graph
  · intro other listed
    rcases List.mem_append.1 listed with earlier | last
    · exact graph other earlier
    · exact List.mem_singleton.1 last ▸ shaped
  · exact graph.elim

theorem State.complete_shaped {state : State} {done : List Placed} (shaped : state.Shaped)
    (whole : state.complete? = some done) : ShapedGraph (done.map Placed.statement) := by
  obtain ⟨statement?, ended, rfl⟩ := Option.map_eq_some_iff.1 whole
  rcases shaped with ⟨none, opening⟩ | ⟨graph, shaped⟩
  · obtain ⟨directed, strict, name, rfl⟩ := Stage.complete_opening opening ended
    rw [none]
    exact List.forall_mem_nil _
  · cases statement? with
    | none => exact graph
    | some statement =>
      rw [List.map_append]
      exact shapedGraph_concat graph (Stage.complete_shaped shaped ended)

theorem State.shift_shaped {state later : State} (found : token.OfRule rules) (shaped : state.Shaped)
    (shifted : state.shift token = some later) : later.Shaped := by
  rcases State.shift_cases shifted with ⟨followed, kept⟩ | ⟨ended, begun⟩
  · rcases shaped with ⟨none, opening⟩ | ⟨graph, shaped⟩
    · exact .inl ⟨kept.trans none, Stage.follow_opening opening followed⟩
    · exact .inr ⟨kept ▸ graph, Stage.follow_shaped found shaped followed⟩
  · exact .inr ⟨State.complete_shaped shaped ended, Stage.begin_shaped begun⟩

theorem parse_shaped {text : String} {document : Document} (parsed : parse text = .ok document) :
    document.format = .dot ∧ ShapedGraph (document.statements.map Placed.statement) := by
  unfold parse at parsed
  split at parsed
  · rename_i read
    cases parsed
    have start : State.Shaped grammar.start := .inl ⟨rfl, trivial⟩
    refine ⟨rfl, (Grammar.parse_ok_iff.1 read).keeps State.Shaped (fun done => ShapedGraph (done.map Placed.statement))
      ?_ State.complete_shaped (List.Subset.refl _) start⟩
    exact fun found _ shaped shifted => State.shift_shaped found shaped shifted
  · cases parsed

end DiagramStream.Dot
