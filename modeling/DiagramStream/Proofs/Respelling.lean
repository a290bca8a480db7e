import Mathlib.Data.List.Forall2
import DiagramStream.Proofs.Exchange.Step
import DiagramStream.Proofs.Graph.Tally
import DiagramStream.Proofs.Roster.Bindings
import DiagramStream.Proofs.Run

/-!
Two names of one node. Main statement: once a declaration has given a name beside another, either may be written for
the other wherever a statement uses them, as long as no later declaration gives one of the two as a second name.
-/

namespace DiagramStream

-- The second name that a statement gives.
def Statement.otherName? : Statement → Option String
  | .declaration _ _ otherName _ _ => Roster.given otherName
  | _ => none

-- One of two names written for the other, or neither.
inductive Swapped (one other : String) : String → String → Prop where
  | same (name : String) : Swapped one other name name
  | there : Swapped one other one other
  | back : Swapped one other other one

-- A statement that uses names, with the two written for each other in some places. A declaration stays as it is.
inductive Statement.Respelled (one other : String) : Statement → Statement → Prop where
  | same (statement : Statement) : Respelled one other statement statement
  | message {source source' target target' : String} (arrow : String) (label mark : Option String) :
      Swapped one other source source' → Swapped one other target target' →
      Respelled one other (.message source arrow target label mark) (.message source' arrow target' label mark)
  | activation {name name' : String} (attrs : Attrs) : Swapped one other name name' →
      Respelled one other (.activation name attrs) (.activation name' attrs)
  | deactivation {name name' : String} : Swapped one other name name' →
      Respelled one other (.deactivation name) (.deactivation name')
  | destruction {name name' : String} : Swapped one other name name' →
      Respelled one other (.destruction name) (.destruction name')
  | note {targets targets' : List String} (side text : String) : List.Forall₂ (Swapped one other) targets targets' →
      Respelled one other (.note targets side text) (.note targets' side text)

def Placed.Respelled (one other : String) (placed spelled : Placed) : Prop :=
  spelled.position = placed.position ∧ placed.statement.Respelled one other spelled.statement

-- Calls

namespace Roster
variable {roster before after : Roster} {second : Option String} {one other : String}

-- Where calls lead that give no second name, or none but `second`.
def Leads (second : Option String) (before after : Roster) : Prop :=
  ∃ calls : List Call, (∀ call ∈ calls, call.otherName? = none ∨ call.otherName? = second) ∧
    after = before.performAll calls

theorem Leads.refl (second : Option String) (roster : Roster) : Leads second roster roster := ⟨[], by simp, rfl⟩

theorem Leads.trans {middle : Roster} (first : Leads second before middle) (later : Leads second middle after) :
    Leads second before after := by
  obtain ⟨calls, quiet, rfl⟩ := first
  obtain ⟨more, still, rfl⟩ := later
  refine ⟨calls ++ more, ?_, (performAll_append before calls more).symm⟩
  intro call member
  rcases List.mem_append.1 member with early | late
  · exact quiet call early
  · exact still call late

theorem Leads.mention (second : Option String) (roster : Roster) (name : String) (attrs : Attrs) :
    Leads second roster (roster.mention name attrs).roster :=
  ⟨[.mention name attrs], by simp [Call.otherName?], rfl⟩

theorem Leads.declare (roster : Roster) {said : Declaration}
    (quiet : given said.otherName = none ∨ given said.otherName = second) :
    Leads second roster (roster.declare said).roster :=
  ⟨[.declare said], by simpa [Call.otherName?] using quiet, rfl⟩

-- What every such call keeps.
theorem Leads.keeps (Kept : Roster → Prop)
    (step : ∀ roster call, Kept roster → call.otherName? = none ∨ call.otherName? = second →
      Kept (roster.perform call).roster)
    (leads : Leads second before after) (kept : Kept before) : Kept after := by
  obtain ⟨calls, quiet, rfl⟩ := leads
  induction calls generalizing before with
  | nil => exact kept
  | cons call rest ih =>
    have next := step before call kept (quiet call (List.mem_cons_self ..))
    exact ih next (fun later member => quiet later (List.mem_cons_of_mem _ member))

theorem perform_sound (sound : roster.Sound) (call : Call) : (roster.perform call).roster.Sound := by
  cases call with
  | mention name attrs => exact (mention_grows sound name attrs).sound
  | declare said => exact (declare_grows sound said).sound

theorem Leads.sound (leads : Leads second before after) (sound : before.Sound) : after.Sound :=
  leads.keeps Sound (fun _ call sound _ => perform_sound sound call) sound

-- Two names of one member.
structure Synonyms (roster : Roster) (one other : String) : Prop where
  sound : roster.Sound
  shared : ∃ id, roster.id? one = some id ∧ roster.id? other = some id

theorem Synonyms.mention (synonyms : Synonyms roster one other) {name spelled : String}
    (swapped : Swapped one other name spelled) (attrs : Attrs) :
    roster.mention name attrs = roster.mention spelled attrs := by
  obtain ⟨id, first, too⟩ := synonyms.shared
  cases swapped with
  | same => rfl
  | there => rw [mention_known synonyms.sound first, mention_known synonyms.sound too]
  | back => rw [mention_known synonyms.sound too, mention_known synonyms.sound first]

-- A name is taken from a member only as the second name of a declaration.
theorem Synonyms.perform (synonyms : Synonyms roster one other) {call : Call} (first : call.otherName? ≠ some one)
    (too : call.otherName? ≠ some other) : Synonyms (roster.perform call).roster one other := by
  have binds := perform_binds synonyms.sound call
  obtain ⟨id, oneBound, otherBound⟩ := synonyms.shared
  refine ⟨perform_sound synonyms.sound call, id, ?_, ?_⟩
  · exact Decidable.byContradiction fun moved => first (binds.moved one id oneBound moved)
  · exact Decidable.byContradiction fun moved => too (binds.moved other id otherBound moved)

theorem Leads.synonyms (leads : Leads second before after) (first : second ≠ some one) (too : second ≠ some other)
    (synonyms : Synonyms before one other) : Synonyms after one other := by
  refine leads.keeps (Synonyms · one other) ?_ synonyms
  rintro roster call synonyms (quiet | stated)
  · exact synonyms.perform (by simp [quiet]) (by simp [quiet])
  · exact synonyms.perform (stated ▸ first) (stated ▸ too)

-- A declaration makes its two names names of one member.
theorem declare_synonyms (sound : roster.Sound) {said : Declaration} (stated : given said.otherName = some other) :
    Synonyms (roster.declare said).roster said.name other := by
  have binds := perform_binds sound (.declare said)
  exact ⟨(declare_grows sound said).sound, _, binds.name, binds.otherName other stated⟩

end Roster

-- Statements

namespace Narration
open Roster
variable {narration after : Narration} {second : Option String}

theorem participant_leads (narration : Narration) (name : String) :
    Leads second narration.roster (narration.participant name).2.roster := by
  rw [participant_eq]
  exact .mention ..

theorem participants_leads (narration : Narration) (names : List String) :
    Leads second narration.roster (narration.participants names).2.roster := by
  induction names generalizing narration with
  | nil => exact .refl ..
  | cons name rest ih => exact (participant_leads narration name).trans (ih _)

theorem graphNode_leads (narration : Narration) (name : String) :
    Leads second narration.roster (narration.graphNode name).2.roster := by
  have mentioned : Leads second narration.roster _ := .mention second narration.roster name narration.nesting.nodeAttrs
  unfold graphNode
  dsimp only
  split <;> exact mentioned

theorem edgeEnds_leads (narration : Narration) (refs : List NodeRef) :
    Leads second narration.roster (narration.edgeEnds refs).2.roster := by
  induction refs generalizing narration with
  | nil => exact .refl ..
  | cons ref rest ih => exact (graphNode_leads narration ref.name).trans (ih _)

theorem edgeEndGroups_leads (narration : Narration) (groups : List (List NodeRef)) :
    Leads second narration.roster (narration.edgeEndGroups groups).2.roster := by
  induction groups generalizing narration with
  | nil => exact .refl ..
  | cons group rest ih => exact (edgeEnds_leads narration group).trans (ih _)

theorem declaration_leads (narration : Narration) (kind name : String) (otherName label : Option String)
    (attrs : Attrs) (place : Text.Position) :
    Leads (given otherName) narration.roster
      (narration.declaration kind name otherName label attrs place.line).roster := by
  rw [declaration_eq narration kind name otherName label attrs place]
  exact .declare _ (.inr rfl)

theorem deactivate_roster {id : String} {line : Int} (lowered : narration.deactivate id line = .ok after) :
    after.roster = narration.roster := by
  rw [deactivate_eq] at lowered
  split at lowered <;> cases lowered
  rfl

theorem applyMark_roster {mark : Option String} {source target : String} {line : Int}
    (marked : narration.applyMark mark source target line = .ok after) : after.roster = narration.roster := by
  unfold applyMark at marked
  split at marked
  · cases marked; rfl
  · split at marked
    · exact deactivate_roster marked
    · cases marked; rfl

theorem message_leads {source arrow target : String} {label mark : Option String} {line : Int}
    (told : narration.message source arrow target label mark line = .ok after) :
    Leads second narration.roster after.roster := by
  unfold message at told
  split at told
  · cases told
  · rw [applyMark_roster told]
    exact (participant_leads narration source).trans (participant_leads _ target)

theorem note_leads (narration : Narration) (targets : List String) (side text : String) :
    Leads second narration.roster (narration.note targets side text).roster := by
  simp only [note, foldl_emit]
  exact participants_leads narration targets

theorem blockOpen_roster {kind : String} {condition : Option String} {line : Int}
    (opened : narration.blockOpen kind condition line = .ok after) : after.roster = narration.roster := by
  unfold blockOpen at opened
  cases known : ScopeKind.ofName? kind with
  | none => simp [known] at opened
  | some scope =>
    simp only [known, Except.ok.injEq] at opened
    rw [← opened]
    dsimp only
    split <;> rfl

theorem blockElse_roster {condition : Option String} {line : Int}
    (divided : narration.blockElse condition line = .ok after) : after.roster = narration.roster := by
  unfold blockElse at divided
  split at divided <;> cases divided
  rfl

theorem blockEnd_roster {line : Int} (ended : narration.blockEnd line = .ok after) :
    after.roster = narration.roster := by
  unfold blockEnd at ended
  split at ended <;> cases ended
  split <;> rfl

theorem graphOpen_roster {directed strict : Bool} {name : Option String} {place : Text.Position}
    (opened : narration.graphOpen directed strict name place = .ok after) : after.roster = narration.roster := by
  unfold graphOpen at opened
  split at opened <;> cases opened
  rfl

theorem chain_leads {tails : List EdgeEnd} {endpoints : List (List NodeRef)} {operators : List String} {attrs : Attrs}
    {line : Int} (joined : narration.chain tails endpoints operators attrs line = .ok after) :
    Leads second narration.roster after.roster := by
  unfold chain at joined
  split at joined <;> cases joined
  exact edgeEndGroups_leads narration endpoints

theorem scopeClose_leads {endpoints : List (List NodeRef)} {operators : List String} {attrs : Attrs}
    {place : Text.Position} (closed : narration.scopeClose endpoints operators attrs place = .ok after) :
    Leads second narration.roster after.roster := by
  unfold scopeClose at closed
  split at closed
  · cases closed
  · rename_i nesting scope within
    dsimp only at closed
    split at closed
    · split at closed <;> cases closed
      exact .refl ..
    · split at closed
      · cases closed
        exact .refl ..
      · change Leads second { narration with nesting := nesting }.roster after.roster
        exact chain_leads closed

theorem nodeStatement_leads {node : NodeRef} {attrs : Attrs} {line : Int}
    (stated : narration.nodeStatement node attrs line = .ok after) :
    Leads second narration.roster after.roster := by
  unfold nodeStatement at stated
  split at stated
  · cases stated
  · rw [(declared_same stated).1]
    exact .declare _ (.inl rfl)

theorem edgeStatement_leads {endpoints : List (List NodeRef)} {operators : List String} {attrs : Attrs} {line : Int}
    (stated : narration.edgeStatement endpoints operators attrs line = .ok after) :
    Leads second narration.roster after.roster := by
  unfold edgeStatement at stated
  split at stated
  · cases stated
  · exact (edgeEnds_leads narration _).trans (chain_leads stated)

-- Whatever a statement says, it makes calls to the roster, and gives no second name but its own.
theorem tell_leads {placed : Placed} (told : narration.tell placed = .ok after) :
    Leads placed.statement.otherName? narration.roster after.roster := by
  obtain ⟨position, statement⟩ := placed
  cases statement with
  | declaration kind name otherName label attrs =>
    cases told
    exact declaration_leads ..
  | message source arrow target label mark => exact message_leads told
  | activation name attrs =>
    cases told
    exact participant_leads narration name
  | deactivation name =>
    refine (deactivate_roster told).symm ▸ participant_leads narration name
  | destruction name =>
    cases told
    exact participant_leads narration name
  | note targets side text =>
    cases told
    exact note_leads narration targets side text
  | divider style text => cases told; exact .refl ..
  | comment text => cases told; exact .refl ..
  | blockOpen kind condition => rw [blockOpen_roster told]; exact .refl ..
  | blockElse condition => rw [blockElse_roster told]; exact .refl ..
  | blockEnd => rw [blockEnd_roster told]; exact .refl ..
  | graphOpen directed strict name => rw [graphOpen_roster told]; exact .refl ..
  | subgraphOpen name => cases (body_of_told told).2; exact .refl ..
  | scopeClose endpoints operators attrs => exact scopeClose_leads told
  | nodeStatement node attrs => exact nodeStatement_leads (body_of_told told).2
  | edgeStatement endpoints operators attrs => exact edgeStatement_leads (body_of_told told).2
  | attrStatement target attrs => cases (body_of_told told).2; exact .refl ..
  | assignment key value => cases (body_of_told told).2; exact .refl ..
  | vacant => cases told

-- Runs

variable {one other : String}

theorem participant_swapped (synonyms : Synonyms narration.roster one other) {name spelled : String}
    (swapped : Swapped one other name spelled) : narration.participant name = narration.participant spelled := by
  unfold participant
  rw [synonyms.mention swapped]

theorem participant_synonyms (synonyms : Synonyms narration.roster one other) (name : String) :
    Synonyms (narration.participant name).2.roster one other := by
  have leads : Leads none narration.roster (narration.participant name).2.roster := participant_leads narration name
  exact leads.synonyms (by simp) (by simp) synonyms

theorem participants_swapped (synonyms : Synonyms narration.roster one other) {names spelled : List String}
    (swapped : List.Forall₂ (Swapped one other) names spelled) :
    narration.participants names = narration.participants spelled := by
  induction swapped generalizing narration with
  | nil => rfl
  | @cons name _ _ _ first rest ih =>
    have here := participant_swapped synonyms first
    have later := ih (participant_synonyms synonyms name)
    simp only [participants, ← here, later]

theorem tell_respelled (synonyms : Synonyms narration.roster one other) {placed spelled : Placed}
    (respelled : placed.Respelled one other spelled) : narration.tell placed = narration.tell spelled := by
  obtain ⟨place, statement⟩ := placed
  obtain ⟨place', statement'⟩ := spelled
  obtain ⟨same, respelled⟩ := respelled
  cases show place' = place from same
  cases respelled with
  | same => rfl
  | @message source _ _ _ arrow label mark first later =>
    have here := participant_swapped synonyms first
    have there := participant_swapped (participant_synonyms synonyms source) later
    simp only [tell, message, ← here, there]
  | activation attrs swapped => simp only [tell, participant_swapped synonyms swapped]
  | deactivation swapped => simp only [tell, participant_swapped synonyms swapped]
  | destruction swapped => simp only [tell, participant_swapped synonyms swapped]
  | note side text swapped => simp only [tell, note, participants_swapped synonyms swapped]

theorem tellAll_respelled (synonyms : Synonyms narration.roster one other) {statements spelled : List Placed}
    (settled : ∀ placed ∈ statements,
      placed.statement.otherName? ≠ some one ∧ placed.statement.otherName? ≠ some other)
    (respelled : List.Forall₂ (Placed.Respelled one other) statements spelled) :
    narration.tellAll statements = narration.tellAll spelled := by
  induction respelled generalizing narration with
  | nil => rfl
  | @cons placed _ _ _ here _ ih =>
    obtain ⟨first, too⟩ := settled placed (List.mem_cons_self ..)
    unfold tellAll
    rw [← tell_respelled synonyms here]
    cases told : narration.tell placed with
    | error failure => rfl
    | ok next =>
      have still := (tell_leads told).synonyms first too synonyms
      exact ih still fun later member => settled later (List.mem_cons_of_mem _ member)

theorem ofDocument_respelled {before after spelled : List Placed} {kind name other : String} (some_ : other ≠ "")
    (place : Text.Position) (label : Option String) (attrs : Attrs)
    (settled : ∀ placed ∈ after,
      placed.statement.otherName? ≠ some name ∧ placed.statement.otherName? ≠ some other)
    (respelled : List.Forall₂ (Placed.Respelled name other) after spelled) (batching : Batching) :
    let declaration : Placed := ⟨place, .declaration kind name (some other) label attrs⟩
    ofDocument ⟨.sequence, before ++ declaration :: spelled⟩ batching =
      ofDocument ⟨.sequence, before ++ declaration :: after⟩ batching := by
  intro declaration
  -- The opening of a sequence diagram does not look at the statements.
  have opens : ∀ statements, opening ⟨.sequence, statements⟩ batching = opening ⟨.sequence, []⟩ batching := fun _ => rfl
  have told : (opening ⟨.sequence, []⟩ batching).tellAll (before ++ declaration :: spelled) =
      (opening ⟨.sequence, []⟩ batching).tellAll (before ++ declaration :: after) := by
    rw [tellAll_append, tellAll_append]
    cases run : (opening ⟨.sequence, []⟩ batching).tellAll before with
    | error failure => rfl
    | ok middle =>
      have sound : middle.roster.Sound := tellAll_preserves (fun narration => narration.roster.Sound)
        (fun _ _ _ _ sound told => (tell_leads told).sound sound) (empty_sound genericKind) run
      have synonyms : Synonyms (middle.declaration kind name (some other) label attrs place.line).roster
          name other := by
        rw [declaration_eq middle kind name (some other) label attrs place]
        exact declare_synonyms sound (by simp [given, some_])
      exact (tellAll_respelled synonyms settled respelled).symm
  simp only [ofDocument]
  rw [opens (before ++ _), told, ← opens (before ++ declaration :: after)]

-- Both names in use, before and after a declaration that takes a third name from its node.
theorem ofDocument_respelled_rebound :
    let client : Placed := ⟨⟨2, 1⟩, .declaration "actor" "Client" (some "C") none Table.empty⟩
    let server : Placed := ⟨⟨4, 1⟩, .declaration "database" "Store" (some "Server") none Table.empty⟩
    let before : List Placed := [⟨⟨1, 1⟩, .message "C" "->" "Server" none none⟩]
    let after : List Placed :=
      [⟨⟨3, 1⟩, .message "C" "->" "Server" none (some "++")⟩, server, ⟨⟨5, 1⟩, .message "Server" "->" "C" none none⟩,
       ⟨⟨6, 1⟩, .note ["C", "Store", "Client"] "over" "done"⟩, ⟨⟨7, 1⟩, .destruction "Client"⟩]
    let spelled : List Placed :=
      [⟨⟨3, 1⟩, .message "Client" "->" "Server" none (some "++")⟩, server,
       ⟨⟨5, 1⟩, .message "Server" "->" "Client" none none⟩,
       ⟨⟨6, 1⟩, .note ["C", "Store", "C"] "over" "done"⟩, ⟨⟨7, 1⟩, .destruction "C"⟩]
    (∀ placed ∈ after, placed.statement.otherName? ≠ some "Client" ∧ placed.statement.otherName? ≠ some "C") ∧
    List.Forall₂ (Placed.Respelled "Client" "C") after spelled ∧
    (ofDocument ⟨.sequence, before ++ client :: after⟩ .diagram).toOption.isSome = true ∧
    ofDocument ⟨.sequence, before ++ client :: spelled⟩ .diagram =
      ofDocument ⟨.sequence, before ++ client :: after⟩ .diagram := by
  intro client server before after spelled
  have settled : ∀ placed ∈ after,
      placed.statement.otherName? ≠ some "Client" ∧ placed.statement.otherName? ≠ some "C" := by decide
  have respelled : List.Forall₂ (Placed.Respelled "Client" "C") after spelled :=
    .cons ⟨rfl, .message "->" none (some "++") .back (.same "Server")⟩
      (.cons ⟨rfl, .same server.statement⟩
        (.cons ⟨rfl, .message "->" none none (.same "Server") .back⟩
          (.cons ⟨rfl, .note "over" "done" (.cons (.same "C") (.cons (.same "Store") (.cons .there .nil)))⟩
            (.cons ⟨rfl, .destruction .there⟩ .nil))))
  exact ⟨settled, respelled, by decide +kernel,
    ofDocument_respelled (by decide) ⟨2, 1⟩ none Table.empty settled respelled .diagram⟩

end Narration
end DiagramStream
