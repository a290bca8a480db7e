import DiagramStream.Proofs.Change
import DiagramStream.Proofs.Past
import DiagramStream.Proofs.Roster.Bindings

/-!
Conflicts over a run of calls. Main statement: a declaration is recorded as a conflict exactly when its node was declared
before and it states another kind than that node has, be that kind the one stated last or the default.
-/

namespace DiagramStream.Roster

-- A declaration with the node that it turned out to be about.
structure Report where
  said : Declaration
  id : String

def reports (roster : Roster) (calls : List Call) : List Report :=
  (withPast calls).filterMap fun moment =>
    match moment.2 with
    | .mention .. => none
    | .declare said => some ⟨said, ((roster.performAll moment.1).declare said).id⟩

def isDeclared (told : List Report) (id : String) : Bool := told.any (·.id = id)

-- The kind that a node was last declared with.
def statedKind? (told : List Report) (id : String) : Option String :=
  (told.filterMap fun report => if report.id = id then given report.said.kind else none).getLast?

-- The kind of a node that was declared, with a kind or without.
def formerKind? (defaultKind : String) (told : List Report) (id : String) : Option String :=
  if isDeclared told id then some ((statedKind? told id).getD defaultKind) else none

-- A kind is stated that differs from the former one.
def clash? (former? : Option String) (report : Report) : Option Conflict :=
  match former?, given report.said.kind with
  | some former, some kind =>
    if kind = former then none else some ⟨report.said.name, report.id, former, kind, report.said.line⟩
  | _, _ => none

def clashes (former? : List Report → String → Option String) (told : List Report) : List Conflict :=
  (withPast told).filterMap fun moment => clash? (former? moment.1 moment.2.id) moment.2

-- How a history grows

theorem reports_mention (roster : Roster) (before : List Call) (name : String) (attrs : Attrs) :
    reports roster (before ++ [.mention name attrs]) = reports roster before := by
  simp [reports]

theorem reports_declare (roster : Roster) (before : List Call) (said : Declaration) :
    reports roster (before ++ [.declare said]) =
      reports roster before ++ [⟨said, ((roster.performAll before).declare said).id⟩] := by
  simp [reports]

theorem isDeclared_concat (told : List Report) (report : Report) (id : String) :
    isDeclared (told ++ [report]) id = (isDeclared told id || decide (report.id = id)) := by
  simp [isDeclared]

theorem statedKind?_concat (told : List Report) (report : Report) (id : String) :
    statedKind? (told ++ [report]) id =
      (if report.id = id then given report.said.kind else none).or (statedKind? told id) := by
  unfold statedKind?
  rw [List.filterMap_append, List.getLast?_append]
  by_cases own : report.id = id
  · cases stated : given report.said.kind <;> simp [own, stated]
  · simp [own]

theorem clashes_concat (former? : List Report → String → Option String) (told : List Report) (report : Report) :
    clashes former? (told ++ [report]) = clashes former? told ++ (clash? (former? told report.id) report).toList := by
  simp only [clashes, withPast_concat, List.filterMap_append]
  cases clash : clash? (former? told report.id) report <;> simp [clash]

-- A node that nobody declared has no kind but the default.
theorem statedKind?_undeclared {told : List Report} {id : String} (undeclared : isDeclared told id = false) :
    statedKind? told id = none := by
  have others : ∀ report ∈ told, report.id ≠ id := by
    simpa [isDeclared] using undeclared
  unfold statedKind?
  rw [List.getLast?_eq_none_iff, List.filterMap_eq_nil_iff]
  intro report listed
  rw [if_neg (others report listed)]

-- What calls add to the conflicts

@[simp] theorem bind_conflicts (roster : Roster) (name id : String) : (roster.bind name id).conflicts = roster.conflicts := by
  unfold bind conflicts
  cases roster.id? name with
  | none => rfl
  | some before =>
    by_cases same : before = id <;> simp [same]

@[simp] theorem bindGiven_conflicts (roster : Roster) (name : Option String) (id : String) :
    (roster.bindGiven name id).conflicts = roster.conflicts := by
  unfold bindGiven
  split
  · rfl
  · exact bind_conflicts ..

theorem declare_conflicts (roster : Roster) (said : Declaration) :
    (roster.declare said).roster.conflicts =
      roster.conflicts ++ ((roster.subject? said).bind fun member => conflict? member said).toList := by
  unfold declare
  cases roster.subject? said with
  | none =>
    simp only [bindGiven_conflicts, Option.bind_none, Option.toList_none, List.append_nil]
    rfl
  | some member =>
    simp only [bindGiven_conflicts, bind_conflicts, Option.bind_some]
    cases conflict? member said <;> simp [conflicts]

-- What a roster lists is what was written last under the id

theorem enroll_member? {roster : Roster} {name kind id : String} {label : Option String} {attrs : Attrs}
    {explicit : Bool} {member : Member}
    (found : (roster.enroll name kind label attrs explicit).2.member? id = some member) :
    (id = name ∧ member = (roster.enroll name kind label attrs explicit).1) ∨
      (name ≠ id ∧ roster.member? id = some member) := by
  have found := (Table.get?_set _ _ _ _).symm.trans found
  split at found
  · rename_i same
    exact .inl ⟨same, (Option.some.inj found).symm⟩
  · rename_i other
    exact .inr ⟨Ne.symm other, found⟩

-- What a roster has kept of the declarations so far.
structure Reflects (roster : Roster) (defaultKind : String) (told : List Report) : Prop where
  sound : roster.Sound
  unstated : roster.defaultKind = defaultKind
  listed : ∀ id, isDeclared told id = true → id ∈ roster.members.keys
  explicit : ∀ id member, roster.member? id = some member → member.explicit = isDeclared told id
  kind : ∀ id member, roster.member? id = some member → member.node.kind = (statedKind? told id).getD defaultKind
  conflicts : roster.conflicts = clashes (formerKind? defaultKind) told

namespace Reflects
variable {roster : Roster} {defaultKind : String} {told : List Report}

theorem undeclared (reflects : Reflects roster defaultKind told) {id : String} (fresh : id ∉ roster.members.keys) :
    isDeclared told id = false := by
  refine Bool.eq_false_iff.2 ?_
  intro declared
  exact fresh (reflects.listed id declared)

-- A node that is only mentioned is of the default kind.
theorem mention (reflects : Reflects roster defaultKind told) (name : String) (attrs : Attrs) :
    Reflects (roster.mention name attrs).roster defaultKind told := by
  have sound := (mention_grows reflects.sound name attrs).sound
  cases bound : roster.id? name with
  | some id =>
    rw [mention_known reflects.sound bound]
    exact reflects
  | none =>
    have undeclared := reflects.undeclared (reflects.sound.fresh bound)
    have unstated := (roster.mention_defaultKind name attrs).trans reflects.unstated
    rw [mention_new bound] at sound unstated ⊢
    refine ⟨sound, unstated, ?_, ?_, ?_, reflects.conflicts⟩
    · intro id declared
      exact (Table.mem_keys_set _ _ _ _).2 (.inr (reflects.listed id declared))
    · intro id member found
      rcases enroll_member? found with ⟨rfl, rfl⟩ | ⟨-, old⟩
      · exact undeclared.symm
      · exact reflects.explicit id member old
    · intro id member found
      rcases enroll_member? found with ⟨rfl, rfl⟩ | ⟨-, old⟩
      · rw [statedKind?_undeclared undeclared]
        exact reflects.unstated
      · exact reflects.kind id member old

-- Whatever a declaration does, it is reflected once the member it is about is seen to follow it.
theorem report (reflects : Reflects roster defaultKind told) {after : Roster} {report : Report} {member : Member}
    (sound : after.Sound) (unstated : after.defaultKind = roster.defaultKind)
    (members : after.members = roster.members.set report.id member) (explicit : member.explicit = true)
    (kind : member.node.kind = (given report.said.kind).getD ((statedKind? told report.id).getD defaultKind))
    (conflicts : after.conflicts =
      roster.conflicts ++ (clash? (formerKind? defaultKind told report.id) report).toList) :
    Reflects after defaultKind (told ++ [report]) := by
  refine ⟨sound, unstated.trans reflects.unstated, ?_, ?_, ?_, ?_⟩
  · intro id declared
    rw [isDeclared_concat, Bool.or_eq_true, decide_eq_true_eq] at declared
    rw [members, Table.mem_keys_set]
    exact declared.elim (fun old => .inr (reflects.listed id old)) fun same => .inl same.symm
  · intro id other found
    rw [member?, members, Table.get?_set] at found
    rw [isDeclared_concat]
    split at found
    · rename_i same
      cases Option.some.inj found
      simp [same, explicit]
    · rename_i differs
      simpa [Ne.symm differs] using reflects.explicit id other found
  · intro id other found
    rw [member?, members, Table.get?_set] at found
    rw [statedKind?_concat]
    split at found
    · rename_i same
      cases Option.some.inj found
      rw [if_pos same.symm, kind, same]
      cases given report.said.kind <;> rfl
    · rename_i differs
      simpa [Ne.symm differs] using reflects.kind id other found
  · rw [conflicts, reflects.conflicts, clashes_concat]

-- A new node goes against nothing.
theorem declare_new (reflects : Reflects roster defaultKind told) {said : Declaration}
    (nobody : roster.subject? said = none) :
    Reflects (roster.declare said).roster defaultKind (told ++ [⟨said, said.name⟩]) := by
  have undeclared := reflects.undeclared (reflects.sound.fresh (subject?_none reflects.sound nobody))
  have members : (roster.declare said).roster.members = roster.members.set said.name
      (roster.enroll said.name ((given said.kind).getD roster.defaultKind) said.label said.attrs true).1 := by
    unfold Roster.declare
    rw [nobody]
    exact bindGiven_members ..
  refine reflects.report (declare_grows reflects.sound said).sound (roster.declare_defaultKind said) members rfl ?_ ?_
  · rw [statedKind?_undeclared undeclared, Option.getD_none, ← reflects.unstated]
    rfl
  · rw [declare_conflicts, nobody, formerKind?, undeclared]
    rfl

-- The roster has the former kind at hand, as it is the one that the node has.
theorem conflict?_eq (reflects : Reflects roster defaultKind told) {member : Member}
    (found : roster.member? member.node.id = some member) (said : Declaration) :
    conflict? member said = clash? (formerKind? defaultKind told member.node.id) ⟨said, member.node.id⟩ := by
  unfold conflict? clash? formerKind?
  rw [reflects.explicit _ _ found, reflects.kind _ _ found]
  cases given said.kind with
  | none => cases isDeclared told member.node.id <;> rfl
  | some kind =>
    cases isDeclared told member.node.id with
    | false => rfl
    | true => by_cases same : kind = (statedKind? told member.node.id).getD defaultKind <;> simp [same]

theorem declare_known (reflects : Reflects roster defaultKind told) {said : Declaration} {member : Member}
    (found : roster.subject? said = some member) :
    Reflects (roster.declare said).roster defaultKind (told ++ [⟨said, member.node.id⟩]) := by
  have listed := subject?_member reflects.sound found
  have members : (roster.declare said).roster.members =
      roster.members.set member.node.id { member with node := (revise member.node said).node, explicit := true } := by
    unfold Roster.declare
    rw [found]
    exact bindGiven_members ..
  refine reflects.report (declare_grows reflects.sound said).sound (roster.declare_defaultKind said) members rfl ?_ ?_
  · rw [revise_kind, reflects.kind _ _ listed]
  · rw [declare_conflicts, found, ← reflects.conflict?_eq listed]
    rfl

theorem declare (reflects : Reflects roster defaultKind told) (said : Declaration) :
    Reflects (roster.declare said).roster defaultKind (told ++ [⟨said, (roster.declare said).id⟩]) := by
  cases subject : roster.subject? said with
  | none =>
    have id : (roster.declare said).id = said.name := by simp [Roster.declare, subject]
    rw [id]
    exact reflects.declare_new subject
  | some member =>
    have id : (roster.declare said).id = member.node.id := by simp [Roster.declare, subject]
    rw [id]
    exact reflects.declare_known subject

end Reflects

theorem performAll_reflects (defaultKind : String) (calls : List Call) :
    Reflects ((empty defaultKind).performAll calls) defaultKind (reports (empty defaultKind) calls) := by
  induction calls using List.reverseRecOn with
  | nil =>
    refine ⟨empty_sound defaultKind, rfl, ?_, ?_, ?_, rfl⟩
    · intro id declared
      cases declared
    · intro id member found
      cases found
    · intro id member found
      cases found
  | append_singleton before call ih =>
    rw [performAll_append]
    cases call with
    | mention name attrs =>
      rw [reports_mention]
      exact ih.mention name attrs
    | declare said =>
      rw [reports_declare]
      exact ih.declare said

-- Conflicts that nobody caused by a kind of their own

-- A node that was never declared with a kind has only the default to go against.
theorem clash?_stated (defaultKind : String) (before : List Report) (report : Report) :
    clash? (statedKind? before report.id) report = clash? (formerKind? defaultKind before report.id) report ↔
      (isDeclared before report.id = true → statedKind? before report.id = none →
        (given report.said.kind).getD defaultKind = defaultKind) := by
  unfold formerKind?
  cases declared : isDeclared before report.id with
  | false => simp [statedKind?_undeclared declared]
  | true =>
    cases stated : statedKind? before report.id with
    | some kind => simp
    | none =>
      cases kind : given report.said.kind with
      | none => simp [clash?, kind]
      | some other =>
        by_cases same : other = defaultKind <;> simp [clash?, kind, same]

theorem clash?_stated_sublist (defaultKind : String) (before : List Report) (report : Report) :
    (clash? (statedKind? before report.id) report).toList.Sublist
      (clash? (formerKind? defaultKind before report.id) report).toList := by
  cases stated : statedKind? before report.id with
  | none => exact List.nil_sublist _
  | some kind =>
    have declared : isDeclared before report.id = true := by
      rw [← Bool.not_eq_false]
      intro undeclared
      cases (statedKind?_undeclared undeclared).symm.trans stated
    rw [formerKind?, declared, stated]
    exact List.Sublist.refl _

theorem clashes_stated_sublist (defaultKind : String) (told : List Report) :
    (clashes statedKind? told).Sublist (clashes (formerKind? defaultKind) told) := by
  induction told using List.reverseRecOn with
  | nil => exact .slnil
  | append_singleton before report ih =>
    rw [clashes_concat, clashes_concat]
    exact ih.append (clash?_stated_sublist ..)

theorem clashes_stated_iff (defaultKind : String) (told : List Report) :
    clashes (formerKind? defaultKind) told = clashes statedKind? told ↔
      ∀ moment ∈ withPast told, isDeclared moment.1 moment.2.id = true → statedKind? moment.1 moment.2.id = none →
        (given moment.2.said.kind).getD defaultKind = defaultKind := by
  induction told using List.reverseRecOn with
  | nil => simp [clashes]
  | append_singleton before report ih =>
    rw [clashes_concat, clashes_concat, withPast_concat, List.forall_mem_append, ← ih, List.forall_mem_singleton,
      ← clash?_stated]
    constructor
    · intro same
      have older := (clashes_stated_sublist defaultKind before).length_le
      have last := (clash?_stated_sublist defaultKind before report).length_le
      have lengths := congrArg List.length same
      simp only [List.length_append] at lengths
      obtain ⟨first, second⟩ := List.append_inj same (by omega)
      exact ⟨first, by simpa using congrArg List.head? second.symm⟩
    · intro both
      rw [both.1, both.2]

theorem performAll_conflicts (defaultKind : String) (calls : List Call) :
    let roster := (empty defaultKind).performAll calls
    let told := reports (empty defaultKind) calls
    roster.conflicts = clashes (formerKind? defaultKind) told ∧
      (roster.conflicts = clashes statedKind? told ↔
        ∀ moment ∈ withPast told, isDeclared moment.1 moment.2.id = true →
          statedKind? moment.1 moment.2.id = none → (given moment.2.said.kind).getD defaultKind = defaultKind) := by
  intro roster told
  have conflicts := (performAll_reflects defaultKind calls).conflicts
  refine ⟨conflicts, ?_⟩
  rw [conflicts]
  exact clashes_stated_iff defaultKind told

-- A node declared through a second name, without a kind and then with two: the first of them is taken for a change.
theorem performAll_conflicts_renamed :
    let calls : List Call :=
      [.mention "db" Table.empty, .declare ⟨"Store", none, none, some "db", Table.empty, 2⟩,
        .declare ⟨"db", some "database", none, none, Table.empty, 3⟩,
        .declare ⟨"Store", some "queue", none, none, Table.empty, 4⟩]
    let roster := (empty genericKind).performAll calls
    roster.conflicts = [⟨"db", "db", "generic", "database", 3⟩, ⟨"Store", "db", "database", "queue", 4⟩] ∧
      roster.conflicts ≠ clashes statedKind? (reports (empty genericKind) calls) := by
  intro calls roster
  obtain ⟨conflicts, differs⟩ := performAll_conflicts genericKind calls
  refine ⟨conflicts.trans (by decide), ?_⟩
  rw [ne_eq, differs]
  decide

theorem performAll_conflicts_unstated :
    let calls : List Call :=
      [.declare ⟨"A", none, none, none, Table.empty, 1⟩, .declare ⟨"A", some "database", none, none, Table.empty, 2⟩]
    ((empty genericKind).performAll calls).conflicts ≠ clashes statedKind? (reports (empty genericKind) calls) := by
  decide

end DiagramStream.Roster
