import DiagramStream.Proofs.Graph.Site
import DiagramStream.Proofs.Run

/-!
Which lists of statements make up a graph, read off the statements alone. Main statements: such lists are
those that meet no fault and leave no scope open, and their beginnings are those that meet no fault.
-/

namespace DiagramStream

-- By how much a statement changes the number of open scopes, inside the graph.
def Statement.delta : Statement → Int
  | .subgraphOpen _ => 1
  | .scopeClose .. => -1
  | _ => 0

theorem Statement.delta_ge (statement : Statement) : -1 ≤ statement.delta := by
  cases statement <;> simp [delta]

def Statement.operators : Statement → List String
  | .scopeClose _ operators _ => operators
  | .edgeStatement _ operators _ => operators
  | _ => []

-- How many scopes are open after these statements of the body. The graph itself is the first.
def level (body : List Placed) : Int := body.foldl (fun sum placed => sum + placed.statement.delta) 1

@[simp] theorem level_nil : level [] = 1 := rfl

@[simp] theorem level_concat (body : List Placed) (placed : Placed) :
    level (body ++ [placed]) = level body + placed.statement.delta := by
  simp [level]

structure Balanced (directed : Bool) (body : List Placed) : Prop where
  single : ∀ placed ∈ body, ∀ directed strict name, placed.statement ≠ .graphOpen directed strict name
  inside : ∀ earlier, earlier <+: body → earlier ≠ body → level earlier ≠ 0
  closes : level body = 0
  bare : ∀ earlier last, body = earlier ++ [last] → last.statement.operators = []
  joined : ∀ placed ∈ body, ∀ operator ∈ placed.statement.operators, operator = edgeOperator directed

-- Nothing at all, or one graph.
def WellShaped (statements : List Placed) : Prop :=
  statements = [] ∨ ∃ position directed strict name body,
    statements = ⟨position, .graphOpen directed strict name⟩ :: body ∧ Balanced directed body

def Extendable (statements : List Placed) : Prop :=
  ∃ rest, (∀ placed ∈ rest, placed.statement.ofGraph = true) ∧ WellShaped (statements ++ rest)

-- Where the statements lead, whether or not they are refused.
def siteOf (statements : List Placed) : Site := statements.foldl Site.after Site.start

@[simp] theorem siteOf_concat (statements : List Placed) (placed : Placed) :
    siteOf (statements ++ [placed]) = (siteOf statements).after placed := by
  simp [siteOf]

-- What is wrong with a statement after others.
def faultAfter? (before : List Placed) (placed : Placed) : Option Failure := (siteOf before).fault? placed

-- A graph as far as it has come.
structure Begun (directed : Bool) (body : List Placed) (site : Site) : Prop where
  single : ∀ placed ∈ body, ∀ directed strict name, placed.statement ≠ .graphOpen directed strict name
  inside : ∀ earlier, earlier <+: body → earlier ≠ body → level earlier ≠ 0
  depth : level body = site.scopes.length
  facing : site.directed = directed
  closed : site.closed = true ↔ site.scopes = []
  bare : site.scopes = [] → ∀ earlier last, body = earlier ++ [last] → last.statement.operators = []
  joined : ∀ placed ∈ body, ∀ operator ∈ placed.statement.operators, operator = edgeOperator directed

theorem Begun.balanced {directed : Bool} {body : List Placed} {site : Site} (begun : Begun directed body site)
    (ended : site.scopes = []) : Balanced directed body :=
  ⟨begun.single, begun.inside, by rw [begun.depth, ended]; rfl, begun.bare ended, begun.joined⟩

namespace Site
variable {site : Site} {placed : Placed}

theorem misfit?_none_iff {operators : List String} {line : Int} :
    site.misfit? operators line = none ↔ ∀ operator ∈ operators, operator = edgeOperator site.directed := by
  simp [misfit?]

-- What is no fault: the opener where nothing was, and inside a scope everything but a second opener, if its
-- operators fit and the last brace has none.
theorem fault?_outside (outside : site.scopes = []) :
    site.fault? placed = none ↔
      site.closed = false ∧ ∃ directed strict name, placed.statement = .graphOpen directed strict name := by
  obtain ⟨position, statement⟩ := placed
  cases statement <;> simp [fault?, outside]

theorem fault?_inside {top : ScopeKind × Int} {outer : List (ScopeKind × Int)} (inside : site.scopes = top :: outer) :
    site.fault? placed = none ↔
      (∀ directed strict name, placed.statement ≠ .graphOpen directed strict name) ∧
      (∀ operator ∈ placed.statement.operators, operator = edgeOperator site.directed) ∧
      (outer = [] → placed.statement.delta = -1 → placed.statement.operators = []) := by
  obtain ⟨position, statement⟩ := placed
  cases statement with
  | scopeClose endpoints operators attrs =>
    cases outer with
    | nil =>
      by_cases bare : operators = [] <;> simp [fault?, inside, Statement.operators, Statement.delta, bare]
    | cons next rest => simp [fault?, inside, Statement.operators, misfit?_none_iff]
  | edgeStatement endpoints operators attrs =>
    simp [fault?, inside, Statement.operators, Statement.delta, misfit?_none_iff]
  | _ => simp [fault?, inside, Statement.operators, Statement.delta]

theorem after_inside {top : ScopeKind × Int} {outer : List (ScopeKind × Int)} (inside : site.scopes = top :: outer)
    (single : ∀ directed strict name, placed.statement ≠ .graphOpen directed strict name) :
    ((site.after placed).scopes.length : Int) = site.scopes.length + placed.statement.delta ∧
      (site.after placed).directed = site.directed ∧
      ((site.after placed).closed = true ↔ site.closed = true ∨ (site.after placed).scopes = []) := by
  obtain ⟨position, statement⟩ := placed
  cases statement with
  | graphOpen directed strict name => exact absurd rfl (single directed strict name)
  | scopeClose endpoints operators attrs =>
    refine ⟨?_, rfl, ?_⟩
    · simp only [after, inside, Statement.delta, List.tail_cons, List.length_cons]
      omega
    · simp [after, inside]
  | _ => simp [after, inside, Statement.delta]

end Site

theorem Begun.step {directed : Bool} {body : List Placed} {site : Site} (begun : Begun directed body site)
    {placed : Placed} (fine : site.fault? placed = none) : Begun directed (body ++ [placed]) (site.after placed) := by
  cases inside : site.scopes with
  | nil =>
    have ended := begun.closed.2 inside
    have fresh := ((Site.fault?_outside inside).1 fine).1
    rw [ended] at fresh
    cases fresh
  | cons top outer =>
    obtain ⟨single, joined, bare⟩ := (Site.fault?_inside inside).1 fine
    obtain ⟨length, facing, closed⟩ := Site.after_inside inside single
    have open_ : site.closed ≠ true := by rw [Ne, begun.closed, inside]; simp
    refine ⟨?_, ?_, ?_, facing.trans begun.facing, ?_, ?_, ?_⟩
    · intro other member
      rcases List.mem_append.1 member with old | new
      · exact begun.single other old
      · cases List.mem_singleton.1 new; exact single
    · intro earlier begins proper
      rcases List.prefix_concat_iff.1 begins with whole | begins
      · exact absurd whole proper
      · by_cases same : earlier = body
        · rw [same, begun.depth, inside, List.length_cons]; omega
        · exact begun.inside earlier begins same
    · rw [level_concat, begun.depth, length]
    · rw [closed]; simp [open_]
    · intro ended earlier last same
      obtain ⟨rfl, rfl⟩ := List.append_singleton_inj.1 same
      rw [ended, inside] at length
      simp only [List.length_nil, List.length_cons] at length
      have steps := placed.statement.delta_ge
      have alone : outer = [] := List.length_eq_zero_iff.1 (by omega)
      exact bare alone (by omega)
    · intro other member
      rcases List.mem_append.1 member with old | new
      · exact begun.joined other old
      · cases List.mem_singleton.1 new
        rw [← begun.facing]
        exact joined

theorem begun_opener {placed : Placed} (fine : Site.start.fault? placed = none) :
    ∃ position directed strict name, placed = ⟨position, .graphOpen directed strict name⟩ ∧
      Begun directed [] (Site.start.after placed) := by
  obtain ⟨position, statement⟩ := placed
  obtain ⟨directed, strict, name, rfl⟩ := ((Site.fault?_outside rfl).1 fine).2
  refine ⟨position, directed, strict, name, rfl, ?_, ?_, rfl, rfl, ?_, ?_, ?_⟩
  · intro other member; cases member
  · intro earlier begins proper; exact absurd (List.prefix_nil.1 begins) proper
  · simp [Site.after, Site.start]
  · intro ended earlier last same; simp at same
  · intro other member; cases member

-- The first statement opens the graph, and every later one is a step in it.
theorem begun_of_clean {statements : List Placed} (clean : Clean faultAfter? statements) :
    statements = [] ∨ ∃ position directed strict name body,
      statements = ⟨position, .graphOpen directed strict name⟩ :: body ∧ Begun directed body (siteOf statements) := by
  induction statements using List.reverseRecOn with
  | nil => exact .inl rfl
  | append_singleton earlier last ih =>
    obtain ⟨before, fine⟩ := clean_concat.1 clean
    refine .inr ?_
    rcases ih before with rfl | ⟨position, directed, strict, name, body, rfl, begun⟩
    · obtain ⟨position, directed, strict, name, rfl, begun⟩ := begun_opener fine
      exact ⟨position, directed, strict, name, [], rfl, begun⟩
    · refine ⟨position, directed, strict, name, body ++ [last], rfl, ?_⟩
      rw [siteOf_concat]
      exact begun.step fine

theorem wellShaped_of_clean {statements : List Placed} (clean : Clean faultAfter? statements)
    (ended : (siteOf statements).scopes = []) : WellShaped statements := by
  rcases begun_of_clean clean with rfl | ⟨position, directed, strict, name, body, rfl, begun⟩
  · exact .inl rfl
  · exact .inr ⟨position, directed, strict, name, body, rfl, begun.balanced ended⟩

-- A brace for every scope that is open.
def braces (count : Nat) : List Placed := List.replicate count ⟨⟨0, 0⟩, .scopeClose [] [] Table.empty⟩

theorem clean_closed {count : Nat} {statements : List Placed} (clean : Clean faultAfter? statements)
    (depth : (siteOf statements).scopes.length = count) :
    Clean faultAfter? (statements ++ braces count) ∧ (siteOf (statements ++ braces count)).scopes = [] := by
  induction count generalizing statements with
  | zero => simpa [braces, List.length_eq_zero_iff.1 depth] using clean
  | succ count ih =>
    let brace : Placed := ⟨⟨0, 0⟩, .scopeClose [] [] Table.empty⟩
    obtain ⟨top, outer, inside⟩ : ∃ top outer, (siteOf statements).scopes = top :: outer :=
      List.exists_cons_of_length_eq_add_one depth
    have fine : faultAfter? statements brace = none :=
      (Site.fault?_inside inside).2 ⟨by simp [brace], by simp [brace, Statement.operators], fun _ _ => rfl⟩
    have shorter : (siteOf (statements ++ [brace])).scopes.length = count := by
      rw [inside] at depth
      simpa [Site.after, brace, inside] using depth
    have rest := ih (clean_concat.2 ⟨clean, fine⟩) shorter
    have same : statements ++ [brace] ++ braces count = statements ++ braces (count + 1) := by
      simp [braces, brace, List.replicate_succ]
    rwa [same] at rest

theorem prefix_before {body earlier : List Placed} {next : Placed} (begins : earlier ++ [next] <+: body) :
    earlier <+: body ∧ earlier ≠ body ∧ next ∈ body := by
  refine ⟨(List.prefix_append ..).trans begins, ?_, begins.subset (by simp)⟩
  rintro rfl
  have length := begins.length_le
  rw [List.length_append, List.length_singleton] at length
  omega

theorem Balanced.site {directed : Bool} {body : List Placed} (balanced : Balanced directed body)
    (opener : Placed) {strict : Bool} {name : Option String}
    (opens : opener.statement = .graphOpen directed strict name) {earlier : List Placed}
    (begins : earlier <+: body) :
    level earlier = (siteOf (opener :: earlier)).scopes.length ∧ (siteOf (opener :: earlier)).directed = directed := by
  induction earlier using List.reverseRecOn with
  | nil => simp [siteOf, Site.after, opens, Site.start]
  | append_singleton earlier last ih =>
    obtain ⟨before, proper, member⟩ := prefix_before begins
    obtain ⟨depth, facing⟩ := ih before
    have open_ := balanced.inside earlier before proper
    rw [← List.cons_append, siteOf_concat, level_concat]
    cases inside : (siteOf (opener :: earlier)).scopes with
    | nil => rw [depth, inside] at open_; exact absurd rfl open_
    | cons top outer =>
      obtain ⟨length, same, _⟩ := Site.after_inside inside (balanced.single last member)
      exact ⟨by rw [length, depth], same.trans facing⟩

theorem Balanced.fine {directed : Bool} {body : List Placed} (balanced : Balanced directed body)
    {opener : Placed} {strict : Bool} {name : Option String}
    (opens : opener.statement = .graphOpen directed strict name) {earlier : List Placed} {next : Placed}
    (begins : earlier ++ [next] <+: body) : (siteOf (opener :: earlier)).fault? next = none := by
  obtain ⟨before, proper, member⟩ := prefix_before begins
  obtain ⟨depth, facing⟩ := balanced.site opener opens before
  have open_ := balanced.inside earlier before proper
  cases inside : (siteOf (opener :: earlier)).scopes with
  | nil => rw [depth, inside] at open_; exact absurd rfl open_
  | cons top outer =>
    refine (Site.fault?_inside inside).2 ⟨balanced.single next member, ?_, ?_⟩
    · rw [facing]
      exact balanced.joined next member
    · rintro rfl closes
      have zero : level (earlier ++ [next]) = 0 := by
        rw [level_concat, depth, inside, closes]
        rfl
      have whole : earlier ++ [next] = body := by
        by_contra shorter
        exact balanced.inside _ begins shorter zero
      exact balanced.bare earlier next whole.symm

theorem WellShaped.clean {statements : List Placed} (shaped : WellShaped statements) :
    Clean faultAfter? statements ∧ (siteOf statements).scopes = [] := by
  rcases shaped with rfl | ⟨position, directed, strict, name, body, rfl, balanced⟩
  · exact ⟨clean_nil, rfl⟩
  · refine ⟨?_, ?_⟩
    · intro before next within
      cases before with
      | nil =>
        obtain ⟨rfl, _⟩ := List.cons_prefix_cons.1 within
        rfl
      | cons first earlier =>
        obtain ⟨rfl, begins⟩ := List.cons_prefix_cons.1 within
        exact balanced.fine rfl begins
    · have depth := (balanced.site ⟨position, .graphOpen directed strict name⟩ rfl (List.prefix_refl body)).1
      rw [balanced.closes] at depth
      exact List.length_eq_zero_iff.1 (by omega)

theorem extendable_iff (statements : List Placed) : Extendable statements ↔ Clean faultAfter? statements := by
  constructor
  · rintro ⟨rest, _, shaped⟩
    exact shaped.clean.1.earlier (List.prefix_append ..)
  · intro clean
    obtain ⟨whole, ended⟩ := clean_closed clean rfl
    refine ⟨braces _, ?_, wellShaped_of_clean whole ended⟩
    intro placed member
    rw [List.eq_of_mem_replicate member]
    rfl

end DiagramStream
