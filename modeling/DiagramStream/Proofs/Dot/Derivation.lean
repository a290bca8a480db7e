import DiagramStream.Dot.Grammar
import DiagramStream.Proofs.Scan.Places

/-!
The statements of graph texts as their rules derive them. Main statement: whatever tokens are read as a statement are
derived as this statement, from the first of them to the last.
-/

namespace DiagramStream.Dot
open Text Scan

-- The rules

inductive IsPort : List (Token Kind) → String → Prop where
  | one {colon name : Token Kind} : colon.kind = .colon → name.kind.isId = true → IsPort [colon, name] (idText name)
  | two {colon name second point : Token Kind} : colon.kind = .colon → name.kind.isId = true →
      second.kind = .colon → point.kind.isId = true →
      IsPort [colon, name, second, point] (idText name ++ ":" ++ idText point)

inductive IsRef : List (Token Kind) → NodeRef → Prop where
  | bare {name : Token Kind} : name.kind.isId = true → IsRef [name] ⟨idText name, none⟩
  | ported {name : Token Kind} {tokens : List (Token Kind)} {port : String} : name.kind.isId = true →
      IsPort tokens port → IsRef (name :: tokens) ⟨idText name, some port⟩

inductive IsMembers : List (Token Kind) → List NodeRef → Prop where
  | nil : IsMembers [] []
  | concat {before tokens mark : List (Token Kind)} {members : List NodeRef} {ref : NodeRef} : IsMembers before members →
      IsRef tokens ref → Optional (· == .semicolon) mark → IsMembers (before ++ (tokens ++ mark)) (members ++ [ref])

-- What may stand before the brace of a group that is a target.
inductive IsTitle : List (Token Kind) → Prop where
  | nothing : IsTitle []
  | subgraph {subgraph : Token Kind} {name : List (Token Kind)} : subgraph.kind = .subgraph →
      Optional Kind.isId name → IsTitle (subgraph :: name)

inductive IsTarget : List (Token Kind) → List NodeRef → Prop where
  | node {tokens : List (Token Kind)} {ref : NodeRef} : IsRef tokens ref → IsTarget tokens [ref]
  | group {title inside : List (Token Kind)} {opening closing : Token Kind} {members : List NodeRef} : IsTitle title →
      opening.kind = .leftBrace → IsMembers inside members → closing.kind = .rightBrace →
      IsTarget (title ++ opening :: (inside ++ [closing])) members

-- Operators, each with its target.
inductive IsLinks : List (Token Kind) → List String → List (List NodeRef) → Prop where
  | nil : IsLinks [] [] []
  | concat {before tokens : List (Token Kind)} {operator : Token Kind} {operators : List String}
      {targets : List (List NodeRef)} {target : List NodeRef} : IsLinks before operators targets →
      operator.kind = .operator → IsTarget tokens target →
      IsLinks (before ++ operator :: tokens) (operators ++ [String.ofList operator.text]) (targets ++ [target])

inductive IsPair : List (Token Kind) → String × String → Prop where
  -- A key alone counts as true.
  | key {key : Token Kind} : key.kind.isId = true → IsPair [key] (idText key, "true")
  | value {key equals value : Token Kind} : key.kind.isId = true → equals.kind = .equals → value.kind.isId = true →
      IsPair [key, equals, value] (idText key, idText value)

inductive IsPairs : List (Token Kind) → List (String × String) → Prop where
  | nil : IsPairs [] []
  | concat {before tokens mark : List (Token Kind)} {pairs : List (String × String)} {pair : String × String} :
      IsPairs before pairs → IsPair tokens pair → Optional (fun kind => kind == .comma || kind == .semicolon) mark →
      IsPairs (before ++ (tokens ++ mark)) (pairs ++ [pair])

-- Lists in brackets, one behind the other.
inductive IsLists : List (Token Kind) → List (String × String) → Prop where
  | nil : IsLists [] []
  | concat {before inside : List (Token Kind)} {opening closing : Token Kind} {pairs more : List (String × String)} :
      IsLists before pairs → opening.kind = .leftBracket → IsPairs inside more → closing.kind = .rightBracket →
      IsLists (before ++ opening :: (inside ++ [closing])) (pairs ++ more)

def nameOf (tokens : List (Token Kind)) : Option String := tokens.head?.map idText

-- Keywords that attributes are given to.
def defaultsOf : Kind → Option String
  | .graph => some "graph"
  | .node => some "node"
  | .edge => some "edge"
  | _ => none

inductive Derives : List (Token Kind) → Statement → Prop where
  | graphOpen {strict name : List (Token Kind)} {graph brace : Token Kind} : Optional (· == .strict) strict →
      (graph.kind = .graph ∨ graph.kind = .digraph) → Optional Kind.isId name → brace.kind = .leftBrace →
      Derives (strict ++ graph :: (name ++ [brace])) (.graphOpen (graph.kind = .digraph) (strict ≠ []) (nameOf name))
  | subgraphOpen {subgraph brace : Token Kind} {name : List (Token Kind)} : subgraph.kind = .subgraph →
      Optional Kind.isId name → brace.kind = .leftBrace →
      Derives (subgraph :: (name ++ [brace])) (.subgraphOpen (nameOf name))
  | braceOpen {brace : Token Kind} : brace.kind = .leftBrace → Derives [brace] (.subgraphOpen none)
  | scopeClose {brace : Token Kind} : brace.kind = .rightBrace → Derives [brace] (.scopeClose [] [] Table.empty)
  | scopeChain {brace : Token Kind} {links lists : List (Token Kind)} {operators : List String}
      {targets : List (List NodeRef)} {pairs : List (String × String)} : brace.kind = .rightBrace →
      IsLinks links operators targets → operators ≠ [] → IsLists lists pairs →
      Derives (brace :: (links ++ lists)) (.scopeClose targets operators (Table.ofList pairs))
  | nodeStatement {tokens lists : List (Token Kind)} {ref : NodeRef} {pairs : List (String × String)} :
      IsRef tokens ref → IsLists lists pairs → Derives (tokens ++ lists) (.nodeStatement ref (Table.ofList pairs))
  | edgeStatement {tokens links lists : List (Token Kind)} {ref : NodeRef} {operators : List String}
      {targets : List (List NodeRef)} {pairs : List (String × String)} : IsRef tokens ref →
      IsLinks links operators targets → operators ≠ [] → IsLists lists pairs →
      Derives (tokens ++ (links ++ lists)) (.edgeStatement ([ref] :: targets) operators (Table.ofList pairs))
  | attrStatement {word : Token Kind} {lists : List (Token Kind)} {target : String} {pairs : List (String × String)} :
      defaultsOf word.kind = some target → IsLists lists pairs → lists ≠ [] →
      Derives (word :: lists) (.attrStatement target (Table.ofList pairs))
  | assignment {key equals value : Token Kind} : key.kind.isId = true → equals.kind = .equals →
      value.kind.isId = true → Derives [key, equals, value] (.assignment (idText key) (idText value))

-- The tokens of a statement in hand

variable {chain : Chain} {tokens : List (Token Kind)} {token : Token Kind} {ref : NodeRef}

-- A chain of which no operator wants its target.
def Chain.Derived (chain : Chain) (tokens : List (Token Kind)) : Prop :=
  ∃ first links, tokens = first ++ links ∧ IsLinks links chain.operators chain.targets ∧
    match chain.head with
    | some ref => IsRef first ref
    | none => ∃ brace, brace.kind = .rightBrace ∧ first = [brace]

-- The last operator wants its target.
def Chain.Wants (chain : Chain) (tokens : List (Token Kind)) : Prop :=
  ∃ before operator operators, tokens = before ++ [operator] ∧ operator.kind = .operator ∧
    chain.operators = operators ++ [String.ofList operator.text] ∧
    Chain.Derived { chain with operators := operators } before

-- That target is a group, of which the brace has been read.
def Chain.Groups (chain : Chain) (tokens : List (Token Kind)) : Prop :=
  ∃ before title opening, tokens = before ++ (title ++ [opening]) ∧ chain.Wants before ∧ IsTitle title ∧
    opening.kind = .leftBrace

theorem Chain.Derived.join (derived : chain.Derived tokens) (operator : token.kind = .operator) :
    (chain.join (String.ofList token.text)).Wants (tokens ++ [token]) :=
  ⟨tokens, token, chain.operators, rfl, operator, rfl, derived⟩

theorem Chain.Wants.reach {target : List (Token Kind)} {refs : List NodeRef} (wants : chain.Wants tokens)
    (found : IsTarget target refs) :
    (chain.reach refs).Derived (tokens ++ target) ∧ (chain.reach refs).operators ≠ [] := by
  obtain ⟨before, operator, operators, rfl, kind, joined, first, links, rfl, linked, head⟩ := wants
  constructor
  · refine ⟨first, links ++ operator :: target, by simp, ?_, head⟩
    simp only [Chain.reach, joined]
    exact linked.concat kind found
  · simp [Chain.reach, joined]

-- What stands before a node reference at its site.
def Site.Before : Site → List (Token Kind) → Prop
  | .head, tokens => tokens = []
  | .target chain, tokens => chain.Wants tokens
  | .group chain members, tokens => ∃ front inside, tokens = front ++ inside ∧ chain.Groups front ∧ IsMembers inside members

def Subject.Derived : Subject → List (Token Kind) → Prop
  | .node ref, tokens => IsRef tokens ref
  | .chain chain, tokens => chain.Derived tokens ∧ chain.operators ≠ []
  | .defaults target, tokens => ∃ word, defaultsOf word.kind = some target ∧ tokens = [word]

-- A subject with its lists, all of them closed.
def Subject.Listed (subject : Subject) (attrs : Attrs) (tokens : List (Token Kind)) : Prop :=
  ∃ front lists pairs, tokens = front ++ lists ∧ subject.Derived front ∧ IsLists lists pairs ∧ lists ≠ [] ∧
    attrs = Table.ofList pairs

-- The last one is open.
def Subject.Listing (subject : Subject) (attrs : Attrs) (tokens : List (Token Kind)) : Prop :=
  ∃ front lists opening inside pairs more, tokens = front ++ (lists ++ opening :: inside) ∧ subject.Derived front ∧
    IsLists lists pairs ∧ opening.kind = .leftBracket ∧ IsPairs inside more ∧ attrs = Table.ofList (pairs ++ more)

-- It is, and its last pair may still have a mark behind it.
def Subject.Paired (subject : Subject) (attrs : Attrs) (tokens : List (Token Kind)) : Prop :=
  ∃ front more before pair, tokens = front ++ more ∧ subject.Listing before front ∧ IsPair more pair ∧
    attrs = before.set pair.1 pair.2

def Site.Named (site : Site) (name : String) (tokens : List (Token Kind)) : Prop :=
  ∃ before id, tokens = before ++ [id] ∧ site.Before before ∧ id.kind.isId = true ∧ name = idText id

-- The keywords of a graph.
def OpensGraph (isStrict isDirected : Bool) (tokens : List (Token Kind)) : Prop :=
  ∃ strict graph, tokens = strict ++ [graph] ∧ Optional (· == .strict) strict ∧
    (graph.kind = .graph ∨ graph.kind = .digraph) ∧ isStrict = decide (strict ≠ []) ∧
    isDirected = decide (graph.kind = .digraph)

def Stage.Holds : Stage → List (Token Kind) → Prop
  | .start, tokens => tokens = []
  | .strict, tokens => ∃ strict, strict.kind = .strict ∧ tokens = [strict]
  | .graph isStrict isDirected, tokens => OpensGraph isStrict isDirected tokens
  | .graphNamed isStrict isDirected name, tokens => ∃ front id, tokens = front ++ [id] ∧
      OpensGraph isStrict isDirected front ∧ id.kind.isId = true ∧ name = idText id
  | .ready, tokens => ∃ semicolon, semicolon.kind = .semicolon ∧ tokens = [semicolon]
  | .opened statement, tokens => Derives tokens statement
  | .subgraph, tokens => ∃ subgraph, subgraph.kind = .subgraph ∧ tokens = [subgraph]
  | .subgraphNamed name, tokens => ∃ subgraph id, tokens = [subgraph, id] ∧ subgraph.kind = .subgraph ∧
      id.kind.isId = true ∧ name = idText id
  | .closed, tokens => ∃ brace, brace.kind = .rightBrace ∧ tokens = [brace]
  | .defaults target, tokens => (Subject.defaults target).Derived tokens
  | .named site name, tokens => site.Named name tokens
  | .colon site name none, tokens => ∃ front colon, tokens = front ++ [colon] ∧ site.Named name front ∧ colon.kind = .colon
  | .colon site name (some half), tokens => ∃ front colon id second, tokens = front ++ [colon, id, second] ∧
      site.Named name front ∧ colon.kind = .colon ∧ id.kind.isId = true ∧ half = idText id ∧ second.kind = .colon
  | .atPort site name port whole, tokens => ∃ front more, tokens = front ++ more ∧ site.Named name front ∧
      IsPort more port ∧ (whole = false → ∃ colon id, more = [colon, id] ∧ colon.kind = .colon ∧ id.kind.isId = true ∧
        port = idText id)
  | .equals key, tokens => ∃ id equals, tokens = [id, equals] ∧ id.kind.isId = true ∧ key = idText id ∧
      equals.kind = .equals
  | .assigned key value, tokens => Derives tokens (.assignment key value)
  | .operator chain, tokens => chain.Wants tokens
  | .group chain, tokens => ∃ before subgraph, tokens = before ++ [subgraph] ∧ chain.Wants before ∧
      subgraph.kind = .subgraph
  | .groupNamed chain, tokens => ∃ before subgraph id, tokens = before ++ [subgraph, id] ∧ chain.Wants before ∧
      subgraph.kind = .subgraph ∧ id.kind.isId = true
  | .member chain members, tokens => (Site.group chain members).Before tokens
  | .grouped chain, tokens => (Subject.chain chain).Derived tokens
  | .attrs subject sum, tokens => subject.Listing sum tokens
  | .attrKey subject sum key, tokens => ∃ front id, tokens = front ++ [id] ∧ subject.Listing sum front ∧
      id.kind.isId = true ∧ key = idText id
  | .attrEquals subject sum key, tokens => ∃ front id equals, tokens = front ++ [id, equals] ∧
      subject.Listing sum front ∧ id.kind.isId = true ∧ key = idText id ∧ equals.kind = .equals
  | .attrValue subject sum, tokens => subject.Paired sum tokens
  | .attrsClosed subject sum, tokens => subject.Listed sum tokens

-- Attribute lists

variable {subject : Subject} {site : Site} {sum : Attrs} {more : List (Token Kind)} {name : String}

theorem ofList_concat (pairs : List (String × String)) (pair : String × String) :
    (Table.ofList (pairs ++ [pair]) : Attrs) = (Table.ofList pairs).set pair.1 pair.2 := List.foldl_append

theorem Subject.Derived.opens (derived : subject.Derived tokens) (bracket : token.kind = .leftBracket) :
    subject.Listing Table.empty (tokens ++ [token]) :=
  ⟨tokens, [], token, [], [], [], rfl, derived, .nil, bracket, .nil, rfl⟩

theorem Subject.Listed.opens (listed : subject.Listed sum tokens) (bracket : token.kind = .leftBracket) :
    subject.Listing sum (tokens ++ [token]) := by
  obtain ⟨front, lists, pairs, rfl, derived, found, -, rfl⟩ := listed
  exact ⟨front, lists, token, [], pairs, [], by simp, derived, found, bracket, .nil, by simp⟩

theorem Subject.Listing.closes (listing : subject.Listing sum tokens) (bracket : token.kind = .rightBracket) :
    subject.Listed sum (tokens ++ [token]) := by
  obtain ⟨front, lists, opening, inside, pairs, more, rfl, derived, found, opened, entries, rfl⟩ := listing
  exact ⟨front, lists ++ opening :: (inside ++ [token]), pairs ++ more, by simp, derived,
    found.concat opened entries bracket, by simp, rfl⟩

theorem Subject.Listing.pair {pair : String × String} (listing : subject.Listing sum tokens) (found : IsPair more pair) :
    subject.Paired (sum.set pair.1 pair.2) (tokens ++ more) :=
  ⟨tokens, more, sum, pair, rfl, listing, found, rfl⟩

theorem Subject.Paired.mark {mark : List (Token Kind)} (paired : subject.Paired sum tokens)
    (marked : Optional (fun kind => kind == .comma || kind == .semicolon) mark) : subject.Listing sum (tokens ++ mark) := by
  obtain ⟨_, last, _, pair, rfl, ⟨front, lists, opening, inside, pairs, more, rfl, derived, found, opened, entries, rfl⟩,
    paired, rfl⟩ := paired
  refine ⟨front, lists, opening, inside ++ (last ++ mark), pairs, more ++ [pair], by simp, derived, found, opened,
    entries.concat paired marked, ?_⟩
  rw [← List.append_assoc, ofList_concat]

theorem Subject.Paired.unmarked (paired : subject.Paired sum tokens) : subject.Listing sum tokens := by
  simpa using paired.mark .none

-- Only a keyword needs a list behind it.
theorem Subject.Derived.statement {lists : List (Token Kind)} {pairs : List (String × String)}
    (derived : subject.Derived tokens) (listed : IsLists lists pairs)
    (some_ : ∀ target, subject = .defaults target → lists ≠ []) :
    Derives (tokens ++ lists) (subject.statement (Table.ofList pairs)) := by
  cases subject with
  | node ref => exact .nodeStatement derived listed
  | chain chain =>
    obtain ⟨⟨first, links, rfl, linked, head⟩, joined⟩ := derived
    rw [List.append_assoc, Subject.statement, Chain.statement]
    cases start : chain.head with
    | some ref =>
      rw [start] at head
      exact .edgeStatement head linked joined listed
    | none =>
      rw [start] at head
      obtain ⟨brace, kind, rfl⟩ := head
      rw [List.singleton_append]
      exact .scopeChain kind linked joined listed
  | defaults target =>
    obtain ⟨word, kind, rfl⟩ := derived
    exact .attrStatement kind listed (some_ target rfl)

theorem Subject.Listed.statement (listed : subject.Listed sum tokens) : Derives tokens (subject.statement sum) := by
  obtain ⟨front, lists, pairs, rfl, derived, found, some_, rfl⟩ := listed
  exact derived.statement found fun _ _ => some_

-- Node references

-- The last tokens are a node reference at its site.
def Site.Refers (site : Site) (ref : NodeRef) (tokens : List (Token Kind)) : Prop :=
  ∃ before more, tokens = before ++ more ∧ site.Before before ∧ IsRef more ref

theorem Site.Named.refers (named : site.Named name tokens) : site.Refers ⟨name, none⟩ tokens := by
  obtain ⟨before, id, rfl, found, kind, rfl⟩ := named
  exact ⟨before, [id], rfl, found, .bare kind⟩

theorem Site.Named.port {port : String} (named : site.Named name tokens) (found : IsPort more port) :
    site.Refers ⟨name, some port⟩ (tokens ++ more) := by
  obtain ⟨before, id, rfl, here, kind, rfl⟩ := named
  exact ⟨before, id :: more, by simp, here, .ported kind found⟩

theorem Site.Before.named (before : site.Before tokens) (id : token.kind.isId = true) :
    site.Named (idText token) (tokens ++ [token]) := ⟨tokens, token, rfl, before, id, rfl⟩

theorem Site.Refers.asChain (refers : site.Refers ref tokens) (ended : site.chain ref = some chain) :
    chain.Derived tokens := by
  obtain ⟨before, more, rfl, found, referred⟩ := refers
  cases site with
  | head =>
    cases ended
    obtain rfl : before = [] := found
    exact ⟨more, [], by simp, .nil, referred⟩
  | target chain =>
    cases ended
    exact (found.reach (.node referred)).1
  | group => cases ended

theorem Site.Refers.asSubject (refers : site.Refers ref tokens) (ended : site.subject ref = some subject) :
    subject.Derived tokens := by
  obtain ⟨before, more, rfl, found, referred⟩ := refers
  cases site with
  | head =>
    cases ended
    obtain rfl : before = [] := found
    exact referred
  | target chain =>
    cases ended
    exact found.reach (.node referred)
  | group => cases ended

-- One more member of a group.
theorem Site.Refers.member {members : List NodeRef} {mark : List (Token Kind)}
    (refers : (Site.group chain members).Refers ref tokens) (marked : Optional (· == .semicolon) mark) :
    (Site.group chain (members ++ [ref])).Before (tokens ++ mark) := by
  obtain ⟨_, more, rfl, ⟨front, inside, rfl, groups, found⟩, referred⟩ := refers
  exact ⟨front, inside ++ (more ++ mark), by simp, groups, found.concat referred marked⟩

theorem Site.Before.close {members : List NodeRef} (before : (Site.group chain members).Before tokens)
    (brace : token.kind = .rightBrace) : (Subject.chain (chain.reach members)).Derived (tokens ++ [token]) := by
  obtain ⟨_, inside, rfl, ⟨front, title, opening, rfl, wants, titled, opened⟩, found⟩ := before
  have same : front ++ (title ++ [opening]) ++ inside ++ [token] = front ++ (title ++ opening :: (inside ++ [token])) := by
    simp
  rw [same]
  exact wants.reach (.group titled opened found brace)

theorem Chain.Wants.open {title : List (Token Kind)} (wants : chain.Wants tokens) (titled : IsTitle title)
    (brace : token.kind = .leftBrace) : (Site.group chain []).Before (tokens ++ (title ++ [token])) :=
  ⟨tokens ++ (title ++ [token]), [], by simp, ⟨tokens, title, token, rfl, wants, titled, brace⟩, .nil⟩

-- Stages

variable {stage later : Stage}

theorem Site.follow_holds (refers : site.Refers ref tokens) (followed : site.follow ref token = some later) :
    later.Holds (tokens ++ [token]) := by
  unfold Site.follow at followed
  split at followed
  · dsimp only at followed
    split at followed
    · rename_i semicolon
      cases followed
      exact refers.member (.one semicolon)
    · rename_i brace
      cases followed
      have ended := refers.member .none
      rw [List.append_nil] at ended
      exact ended.close brace
    · split at followed
      · rename_i id
        cases followed
        have ended := refers.member .none
        rw [List.append_nil] at ended
        exact ended.named id
      · cases followed
  · split at followed
    · rename_i operator
      obtain ⟨chain, ended, rfl⟩ := Option.map_eq_some_iff.1 followed
      exact (refers.asChain ended).join operator
    · rename_i bracket
      obtain ⟨subject, ended, rfl⟩ := Option.map_eq_some_iff.1 followed
      exact (refers.asSubject ended).opens bracket
    · cases followed

theorem opensGraph_derives {isStrict isDirected : Bool} {id : List (Token Kind)}
    (opens : OpensGraph isStrict isDirected tokens) (named : Optional Kind.isId id) (brace : token.kind = .leftBrace) :
    Derives (tokens ++ (id ++ [token])) (.graphOpen isDirected isStrict (nameOf id)) := by
  obtain ⟨strict, graph, rfl, allowed, known, rfl, rfl⟩ := opens
  rw [List.append_assoc]
  exact .graphOpen allowed known named brace

-- A key is a pair of its own until a sign follows that gives it a value.
theorem Stage.attrKey_paired {key : String} (holds : (Stage.attrKey subject sum key).Holds tokens) :
    subject.Paired (sum.set key "true") tokens := by
  obtain ⟨front, id, rfl, listing, kind, rfl⟩ := holds
  exact listing.pair (.key kind)

-- One case for each way on: the token is the next one of a rule that is under way.
theorem Stage.follow_holds (holds : stage.Holds tokens) (followed : stage.follow token = some later) :
    later.Holds (tokens ++ [token]) := by
  unfold Stage.follow at followed
  split at followed
  all_goals try cases followed
  -- What opens a graph or a part of one.
  case h_1 strict =>
    obtain rfl : tokens = [] := holds
    exact ⟨token, strict, rfl⟩
  case h_2 graph =>
    obtain rfl : tokens = [] := holds
    exact ⟨[], token, rfl, .none, .inl graph, rfl, by simp [graph]⟩
  case h_3 digraph =>
    obtain rfl : tokens = [] := holds
    exact ⟨[], token, rfl, .none, .inr digraph, rfl, by simp [digraph]⟩
  case h_4 graph =>
    obtain ⟨strict, kind, rfl⟩ := holds
    exact ⟨[strict], token, rfl, .one kind, .inl graph, rfl, by simp [graph]⟩
  case h_5 digraph =>
    obtain ⟨strict, kind, rfl⟩ := holds
    exact ⟨[strict], token, rfl, .one kind, .inr digraph, rfl, by simp [digraph]⟩
  case h_6 brace => exact opensGraph_derives holds .none brace
  case h_7 =>
    obtain ⟨id, ⟨⟩⟩ := Option.ite_none_right_eq_some.1 followed
    exact ⟨tokens, token, rfl, holds, id, rfl⟩
  case h_8 brace =>
    obtain ⟨front, name, rfl, opens, kind, rfl⟩ := holds
    rw [List.append_assoc]
    exact opensGraph_derives opens (.some kind) brace
  case h_9 brace =>
    obtain ⟨subgraph, kind, rfl⟩ := holds
    exact .subgraphOpen kind .none brace
  case h_10 =>
    obtain ⟨id, ⟨⟩⟩ := Option.ite_none_right_eq_some.1 followed
    obtain ⟨subgraph, kind, rfl⟩ := holds
    exact ⟨subgraph, token, rfl, kind, id, rfl⟩
  case h_11 brace =>
    obtain ⟨subgraph, name, rfl, kind, named, rfl⟩ := holds
    exact .subgraphOpen kind (.some named) brace
  case h_12 operator =>
    obtain ⟨brace, kind, rfl⟩ := holds
    exact ⟨[brace], token, [], rfl, operator, rfl, [brace], [], rfl, .nil, brace, kind, rfl⟩
  case h_13 bracket => exact Subject.Derived.opens holds bracket
  -- A name and its port.
  case h_14 colon => exact ⟨tokens, token, rfl, holds, colon⟩
  case h_15 equals =>
    obtain ⟨before, name, rfl, found, kind, rfl⟩ := holds
    obtain rfl : before = [] := found
    exact ⟨name, token, rfl, kind, rfl, equals⟩
  case h_16 => exact Site.follow_holds (Site.Named.refers holds) followed
  case h_17 =>
    obtain ⟨id, ⟨⟩⟩ := Option.ite_none_right_eq_some.1 followed
    obtain ⟨front, colon, rfl, named, kind⟩ := holds
    exact ⟨front, [colon, token], by simp, named, .one kind id, fun _ => ⟨colon, token, rfl, kind, id, rfl⟩⟩
  case h_18 =>
    obtain ⟨id, ⟨⟩⟩ := Option.ite_none_right_eq_some.1 followed
    obtain ⟨front, colon, name, second, rfl, named, kind, isId, rfl, again⟩ := holds
    exact ⟨front, [colon, name, second, token], by simp, named, .two kind isId again id, nofun⟩
  case h_19 colon =>
    obtain ⟨front, more, rfl, named, -, half⟩ := holds
    obtain ⟨first, name, rfl, kind, isId, rfl⟩ := half rfl
    exact ⟨front, first, name, token, by simp, named, kind, isId, rfl, colon⟩
  case h_20 =>
    obtain ⟨front, more, rfl, named, ported, -⟩ := holds
    exact Site.follow_holds (named.port ported) followed
  case h_21 =>
    obtain ⟨id, ⟨⟩⟩ := Option.ite_none_right_eq_some.1 followed
    obtain ⟨key, equals, rfl, kind, rfl, sign⟩ := holds
    exact .assignment kind sign id
  -- Targets.
  case h_22 subgraph => exact ⟨tokens, token, rfl, holds, subgraph⟩
  case h_23 brace => exact Chain.Wants.open holds .nothing brace
  case h_24 chain _ _ =>
    obtain ⟨id, ⟨⟩⟩ := Option.ite_none_right_eq_some.1 followed
    have before : (Site.target chain).Before tokens := holds
    exact before.named id
  case h_25 brace =>
    obtain ⟨before, subgraph, rfl, wants, kind⟩ := holds
    rw [List.append_assoc]
    exact wants.open (.subgraph kind .none) brace
  case h_26 =>
    obtain ⟨id, ⟨⟩⟩ := Option.ite_none_right_eq_some.1 followed
    obtain ⟨before, subgraph, rfl, wants, kind⟩ := holds
    exact ⟨before, subgraph, token, by simp, wants, kind, id⟩
  case h_27 brace =>
    obtain ⟨before, subgraph, name, rfl, wants, kind, named⟩ := holds
    rw [List.append_assoc]
    exact wants.open (.subgraph kind (.some named)) brace
  case h_28 brace => exact Site.Before.close holds brace
  case h_29 =>
    obtain ⟨id, ⟨⟩⟩ := Option.ite_none_right_eq_some.1 followed
    exact Site.Before.named holds id
  case h_30 operator => exact holds.1.join operator
  case h_31 bracket => exact Subject.Derived.opens holds bracket
  -- Attribute lists.
  case h_32 bracket => exact Subject.Listing.closes holds bracket
  case h_33 =>
    obtain ⟨id, ⟨⟩⟩ := Option.ite_none_right_eq_some.1 followed
    exact ⟨tokens, token, rfl, holds, id, rfl⟩
  case h_34 equals =>
    obtain ⟨front, key, rfl, listing, kind, rfl⟩ := holds
    exact ⟨front, key, token, by simp, listing, kind, rfl, equals⟩
  case h_35 comma => exact (Stage.attrKey_paired holds).mark (.some (by simp [comma]))
  case h_36 semicolon => exact (Stage.attrKey_paired holds).mark (.some (by simp [semicolon]))
  case h_37 bracket => exact (Stage.attrKey_paired holds).unmarked.closes bracket
  case h_38 =>
    obtain ⟨id, ⟨⟩⟩ := Option.ite_none_right_eq_some.1 followed
    exact ⟨tokens, token, rfl, (Stage.attrKey_paired holds).unmarked, id, rfl⟩
  case h_39 =>
    obtain ⟨id, ⟨⟩⟩ := Option.ite_none_right_eq_some.1 followed
    obtain ⟨front, key, equals, rfl, listing, kind, rfl, sign⟩ := holds
    rw [List.append_assoc]
    exact listing.pair (.value kind sign id)
  case h_40 comma => exact Subject.Paired.mark holds (.some (by simp [comma]))
  case h_41 semicolon => exact Subject.Paired.mark holds (.some (by simp [semicolon]))
  case h_42 bracket => exact (Subject.Paired.unmarked holds).closes bracket
  case h_43 =>
    obtain ⟨id, ⟨⟩⟩ := Option.ite_none_right_eq_some.1 followed
    exact ⟨tokens, token, rfl, Subject.Paired.unmarked holds, id, rfl⟩
  case h_44 bracket => exact Subject.Listed.opens holds bracket

theorem Stage.begin_holds (begun : Stage.begin token = some stage) : stage.Holds [token] := by
  unfold Stage.begin at begun
  split at begun
  all_goals try cases begun
  case h_1 semicolon => exact ⟨token, semicolon, rfl⟩
  case h_2 brace => exact .braceOpen brace
  case h_3 brace => exact ⟨token, brace, rfl⟩
  case h_4 subgraph => exact ⟨token, subgraph, rfl⟩
  case h_5 graph => exact ⟨token, by rw [graph]; rfl, rfl⟩
  case h_6 node => exact ⟨token, by rw [node]; rfl, rfl⟩
  case h_7 edge => exact ⟨token, by rw [edge]; rfl, rfl⟩
  case h_8 =>
    obtain ⟨id, ⟨⟩⟩ := Option.ite_none_right_eq_some.1 begun
    have before : Site.head.Before [] := rfl
    exact before.named id

theorem Subject.Derived.bare (derived : subject.Derived tokens) (free : ∀ target, subject ≠ .defaults target) :
    Derives tokens (subject.statement Table.empty) := by
  have whole := derived.statement .nil fun target same => absurd same (free target)
  rwa [List.append_nil] at whole

theorem Site.subject_free (ended : site.subject ref = some subject) (target : String) : subject ≠ .defaults target := by
  cases site <;> cases ended <;> exact nofun

-- Where it may end, what is in hand is a semicolon alone or a statement as its rule derives it.
theorem Stage.complete_derives {last : Option Statement} (holds : stage.Holds tokens) (whole : stage.complete? = some last) :
    (last = none ∧ ∃ semicolon, semicolon.kind = .semicolon ∧ tokens = [semicolon]) ∨
      ∃ statement, last = some statement ∧ Derives tokens statement := by
  cases stage with
  | ready =>
    cases whole
    exact .inl ⟨rfl, holds⟩
  | opened statement =>
    cases whole
    exact .inr ⟨statement, rfl, holds⟩
  | closed =>
    cases whole
    obtain ⟨brace, kind, rfl⟩ := holds
    exact .inr ⟨_, rfl, .scopeClose kind⟩
  | assigned =>
    cases whole
    exact .inr ⟨_, rfl, holds⟩
  | grouped chain =>
    cases whole
    have derived : (Subject.chain chain).Derived tokens := holds
    exact .inr ⟨_, rfl, derived.bare fun target same => by cases same⟩
  | attrsClosed subject sum =>
    cases whole
    exact .inr ⟨_, rfl, Subject.Listed.statement holds⟩
  | named site name =>
    obtain ⟨subject, ended, same⟩ := Option.map_eq_some_iff.1 whole
    have refers : site.Refers ⟨name, none⟩ tokens := Site.Named.refers holds
    exact .inr ⟨_, same.symm, (refers.asSubject ended).bare (Site.subject_free ended)⟩
  | atPort site name port more =>
    obtain ⟨subject, ended, same⟩ := Option.map_eq_some_iff.1 whole
    obtain ⟨front, more, rfl, named, ported, -⟩ := holds
    exact .inr ⟨_, same.symm, ((named.port ported).asSubject ended).bare (Site.subject_free ended)⟩
  | _ => cases whole

theorem IsRef.ne_nil (derived : IsRef tokens ref) : tokens ≠ [] := by
  cases derived <;> exact List.cons_ne_nil _ _

theorem Derives.ne_nil {statement : Statement} (derives : Derives tokens statement) : tokens ≠ [] := by
  cases derives with
  | graphOpen => simp
  | nodeStatement ref => simp [ref.ne_nil]
  | edgeStatement ref => simp [ref.ne_nil]
  | _ => exact List.cons_ne_nil _ _

end DiagramStream.Dot
