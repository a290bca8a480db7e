import DiagramStream.Sequence.Grammar
import DiagramStream.Proofs.Scan.Places

/-!
The statements of sequence texts as their rules derive them. Main statement: whatever tokens are read as a statement are
derived as this statement, from the first of them to the last; the end of its last line is none of them.
-/

namespace DiagramStream.Sequence
open Text Scan

-- The rules

-- What is read of a token that may be left out.
def spelled (tokens : List (Token Kind)) : Option String := tokens.head?.map fun token => String.ofList token.text

def stereotypeIn (tokens : List (Token Kind)) : Option String :=
  tokens.head?.map fun token => String.ofList (stripped 2 2 token.text)

def labelIn (tokens : List (Token Kind)) : Option String := tokens.head?.bind fun token => labelOf token.text

def conditionIn (tokens : List (Token Kind)) : Option String := tokens.head?.bind fun token => condition token.text

def colorsIn (tokens : List (Token Kind)) : Attrs := Table.ofList ((spelled tokens).map fun color => ("color", color)).toList

-- A name, or two of them.
inductive IsNamed : List (Token Kind) → Name → Option Name → Prop where
  | one {first : Token Kind} {name : Name} : nameOf? first = some name → IsNamed [first] name none
  | two {first also second : Token Kind} {name other : Name} : nameOf? first = some name → also.kind = .also →
      nameOf? second = some other → IsNamed [first, also, second] name (some other)

-- Names with commas between them.
inductive IsNames : List (Token Kind) → List String → Prop where
  | one {first : Token Kind} {name : Name} : nameOf? first = some name → IsNames [first] [name.text]
  | concat {before : List (Token Kind)} {comma next : Token Kind} {names : List String} {name : Name} :
      IsNames before names → comma.kind = .comma → nameOf? next = some name →
      IsNames (before ++ [comma, next]) (names ++ [name.text])

-- Where a note stands, and the names it belongs to.
inductive IsTarget : List (Token Kind) → String → List String → Prop where
  | beside {side first : Token Kind} {mark : List (Token Kind)} {name : Name} : side.kind = .side →
      Optional (· == .sideOf) mark → nameOf? first = some name →
      IsTarget (side :: (mark ++ [first])) (String.ofList side.text) [name.text]
  | above {word : Token Kind} {tokens : List (Token Kind)} {names : List String} : word.kind = .over →
      IsNames tokens names → IsTarget (word :: tokens) "over" names

inductive Derives : List (Token Kind) → Statement → Prop where
  | declaration {participant : Token Kind} {names stereotype color : List (Token Kind)} {name : Name}
      {other : Option Name} : participant.kind = .participant → IsNamed names name other →
      Optional (· == .stereotype) stereotype → Optional (· == .color) color →
      Derives (participant :: (names ++ (stereotype ++ color)))
        (Declaring.statement ⟨String.ofList participant.text, name, other, stereotypeIn stereotype⟩ (spelled color))
  | message {first arrow second : Token Kind} {mark label : List (Token Kind)} {source target : Name} :
      nameOf? first = some source → arrow.kind = .arrow → nameOf? second = some target → Optional (· == .mark) mark →
      Optional (· == .label) label → Derives ([first, arrow, second] ++ (mark ++ label))
        (.message source.text (String.ofList arrow.text) target.text (labelIn label) (spelled mark))
  | activation {activate first : Token Kind} {color : List (Token Kind)} {name : Name} : activate.kind = .activate →
      nameOf? first = some name → Optional (· == .color) color →
      Derives ([activate, first] ++ color) (.activation name.text (colorsIn color))
  | deactivation {deactivate first : Token Kind} {name : Name} : deactivate.kind = .deactivate →
      nameOf? first = some name → Derives [deactivate, first] (.deactivation name.text)
  | destruction {destroy first : Token Kind} {name : Name} : destroy.kind = .destroy → nameOf? first = some name →
      Derives [destroy, first] (.destruction name.text)
  | note {note label : Token Kind} {target : List (Token Kind)} {side : String} {names : List String} :
      note.kind = .note → IsTarget target side names → label.kind = .label →
      Derives (note :: (target ++ [label])) (.note names side (String.ofList (stripped 1 0 label.text)))
  | noteLines {note lineEnd body : Token Kind} {target : List (Token Kind)} {side : String} {names : List String} :
      note.kind = .note → IsTarget target side names → lineEnd.kind = .lineEnd → body.kind = .noteBody →
      Derives (note :: (target ++ [lineEnd, body])) (.note names side (String.ofList (noteText body.text)))
  | separator {token : Token Kind} : token.kind = .separator →
      Derives [token] (.divider "separator" (String.ofList (trim isSeparatorEdge token.text)))
  | delay {token : Token Kind} : token.kind = .delay →
      Derives [token] (.divider "delay" (String.ofList (stripped 3 0 token.text)))
  | spacer {token : Token Kind} : token.kind = .spacer →
      Derives [token] (.divider "space" (String.ofList (stripped 3 0 token.text)))
  | blockOpen {block : Token Kind} {text : List (Token Kind)} : block.kind = .block → Optional (· == .text) text →
      Derives (block :: text) (.blockOpen (String.ofList block.text) (conditionIn text))
  | blockElse {otherwise : Token Kind} {text : List (Token Kind)} : otherwise.kind = .otherwise →
      Optional (· == .text) text → Derives (otherwise :: text) (.blockElse (conditionIn text))
  | blockEnd {finish : Token Kind} : finish.kind = .finish → Derives [finish] .blockEnd
  | comment {token : Token Kind} : token.kind = .comment →
      Derives [token] (.comment (String.ofList (stripped 1 0 token.text)))
  | blockComment {token : Token Kind} : token.kind = .blockComment →
      Derives [token] (.comment (String.ofList (stripped 2 2 token.text)))

-- The tokens of a statement in hand

variable {tokens : List (Token Kind)} {token : Token Kind} {stage later : Stage}

-- A declaration that lacks its color alone.
def Declaring.Holds (said : Declaring) (stereotype tokens : List (Token Kind)) : Prop :=
  ∃ participant names, tokens = participant :: (names ++ stereotype) ∧ participant.kind = .participant ∧
    IsNamed names said.name said.other ∧ Optional (· == .stereotype) stereotype ∧
    said.kind = String.ofList participant.text ∧ said.stereotype = stereotypeIn stereotype

def Sends (source : Name) (arrow : String) (target : Name) (tokens : List (Token Kind)) : Prop :=
  ∃ first shaft second, tokens = [first, shaft, second] ∧ nameOf? first = some source ∧ shaft.kind = .arrow ∧
    arrow = String.ofList shaft.text ∧ nameOf? second = some target

def Stage.Holds : Stage → List (Token Kind) → Prop
  | .ready, tokens => tokens = []
  | .participant kind, tokens => ∃ participant, tokens = [participant] ∧ participant.kind = .participant ∧
      kind = String.ofList participant.text
  | .declared said, tokens => said.Holds [] tokens
  | .also said, tokens => ∃ participant first also, tokens = [participant, first, also] ∧
      participant.kind = .participant ∧ nameOf? first = some said.name ∧ also.kind = .also ∧
      said.kind = String.ofList participant.text ∧ said.stereotype = none
  | .stereotyped said, tokens => ∃ stereotype, said.Holds stereotype tokens
  | .sender name, tokens => ∃ first, tokens = [first] ∧ nameOf? first = some name
  | .arrow source shape, tokens => ∃ first shaft, tokens = [first, shaft] ∧ nameOf? first = some source ∧
      shaft.kind = .arrow ∧ shape = String.ofList shaft.text
  | .receiver source shape target, tokens => Sends source shape target tokens
  | .marked source shape target mark, tokens => ∃ front sign, tokens = front ++ [sign] ∧
      Sends source shape target front ∧ sign.kind = .mark ∧ mark = String.ofList sign.text
  | .activate, tokens => ∃ activate, tokens = [activate] ∧ activate.kind = .activate
  | .activated name, tokens => ∃ activate first, tokens = [activate, first] ∧ activate.kind = .activate ∧
      nameOf? first = some name
  | .single .deactivation, tokens => ∃ deactivate, tokens = [deactivate] ∧ deactivate.kind = .deactivate
  | .single .destruction, tokens => ∃ destroy, tokens = [destroy] ∧ destroy.kind = .destroy
  | .block kind, tokens => ∃ block, tokens = [block] ∧ block.kind = .block ∧ kind = String.ofList block.text
  | .otherwise, tokens => ∃ otherwise, tokens = [otherwise] ∧ otherwise.kind = .otherwise
  | .note, tokens => ∃ note, tokens = [note] ∧ note.kind = .note
  | .noteSide side, tokens => ∃ note beside, tokens = [note, beside] ∧ note.kind = .note ∧ beside.kind = .side ∧
      side = String.ofList beside.text
  | .noteOf side, tokens => ∃ note beside mark, tokens = [note, beside, mark] ∧ note.kind = .note ∧
      beside.kind = .side ∧ side = String.ofList beside.text ∧ mark.kind = .sideOf
  | .noteOver [], tokens => ∃ note word, tokens = [note, word] ∧ note.kind = .note ∧ word.kind = .over
  | .noteOver names, tokens => ∃ note word listed comma, tokens = note :: word :: (listed ++ [comma]) ∧
      note.kind = .note ∧ word.kind = .over ∧ IsNames listed names ∧ comma.kind = .comma
  | .noteTargets side names false, tokens => ∃ note target, tokens = note :: target ∧ note.kind = .note ∧
      IsTarget target side names
  | .noteTargets side names true, tokens => ∃ note word listed, tokens = note :: word :: listed ∧ note.kind = .note ∧
      word.kind = .over ∧ IsNames listed names ∧ side = "over"
  | .noteLines side names, tokens => ∃ note target lineEnd, tokens = note :: (target ++ [lineEnd]) ∧
      note.kind = .note ∧ IsTarget target side names ∧ lineEnd.kind = .lineEnd
  | .whole statement _, tokens => Derives tokens statement

theorem Declaring.Holds.derives {said : Declaring} {stereotype color : List (Token Kind)}
    (holds : said.Holds stereotype tokens) (colored : Optional (· == .color) color) :
    Derives (tokens ++ color) (said.statement (spelled color)) := by
  obtain ⟨kind, name, other, text⟩ := said
  obtain ⟨participant, names, rfl, opened, named, allowed, rfl, rfl⟩ := holds
  rw [List.cons_append, List.append_assoc]
  exact .declaration opened named allowed colored

theorem Declaring.Holds.bare {said : Declaring} {stereotype : List (Token Kind)} (holds : said.Holds stereotype tokens) :
    Derives tokens (said.statement none) := by
  have whole : Derives (tokens ++ []) (said.statement none) := holds.derives .none
  rwa [List.append_nil] at whole

theorem Sends.derives {source target : Name} {arrow : String} {mark label : List (Token Kind)}
    (sends : Sends source arrow target tokens) (marked : Optional (· == .mark) mark)
    (labelled : Optional (· == .label) label) :
    Derives (tokens ++ (mark ++ label)) (.message source.text arrow target.text (labelIn label) (spelled mark)) := by
  obtain ⟨first, shaft, second, rfl, named, kind, rfl, other⟩ := sends
  exact .message named kind other marked labelled

theorem IsNames.ne_nil {names : List String} (listed : IsNames tokens names) : names ≠ [] := by
  cases listed <;> simp

-- A note has got all its targets, whether or not another might follow.
theorem Stage.noteTargets_holds {side : String} {names : List String} {more : Bool}
    (holds : (Stage.noteTargets side names more).Holds tokens) :
    ∃ note target, tokens = note :: target ∧ note.kind = .note ∧ IsTarget target side names := by
  cases more with
  | false => exact holds
  | true =>
    obtain ⟨note, word, listed, rfl, kind, above, names, rfl⟩ := holds
    exact ⟨note, word :: listed, rfl, kind, .above above names⟩

theorem Stage.noteOver_holds {names : List String} {name : Name} (holds : (Stage.noteOver names).Holds tokens)
    (named : nameOf? token = some name) :
    (Stage.noteTargets "over" (names ++ [name.text]) true).Holds (tokens ++ [token]) := by
  cases names with
  | nil =>
    obtain ⟨note, word, rfl, kind, above⟩ := holds
    exact ⟨note, word, [token], rfl, kind, above, .one named, rfl⟩
  | cons first more =>
    obtain ⟨note, word, listed, comma, rfl, kind, above, found, mark⟩ := holds
    exact ⟨note, word, listed ++ [comma, token], by simp, kind, above, found.concat mark named, rfl⟩

theorem Stage.open_holds (fresh : stage = .ready) (followed : stage.follow token = some later) :
    later.Holds [token] := by
  unfold Stage.follow at followed
  dsimp only at followed
  split at followed
  all_goals cases fresh
  all_goals try cases followed
  case h_1 kind => exact ⟨token, rfl, kind, rfl⟩
  case h_2 kind => exact ⟨token, rfl, kind⟩
  case h_3 kind => exact ⟨token, rfl, kind⟩
  case h_4 kind => exact ⟨token, rfl, kind⟩
  case h_5 kind => exact ⟨token, rfl, kind, rfl⟩
  case h_6 kind => exact ⟨token, rfl, kind⟩
  case h_7 kind => exact .blockEnd kind
  case h_8 kind => exact ⟨token, rfl, kind⟩
  case h_9 kind => exact .separator kind
  case h_10 kind => exact .delay kind
  case h_11 kind => exact .spacer kind
  case h_12 kind => exact .comment kind
  case h_13 kind => exact .blockComment kind
  case h_14 =>
    obtain ⟨name, named, rfl⟩ := Option.map_eq_some_iff.1 followed
    exact ⟨token, rfl, named⟩

-- One case for each way on: the token is the next one of a rule that is under way.
theorem Stage.follow_holds (holds : stage.Holds tokens) (followed : stage.follow token = some later) :
    later.Holds (tokens ++ [token]) := by
  by_cases fresh : stage = .ready
  · rw [fresh] at holds
    obtain rfl : tokens = [] := holds
    exact Stage.open_holds fresh followed
  unfold Stage.follow at followed
  dsimp only at followed
  split at followed
  all_goals try cases followed
  all_goals try exact absurd rfl fresh
  -- A declaration.
  case h_15 =>
    obtain ⟨name, named, rfl⟩ := Option.map_eq_some_iff.1 followed
    obtain ⟨participant, rfl, kind, rfl⟩ := holds
    exact ⟨participant, [token], rfl, kind, .one named, .none, rfl, rfl⟩
  case h_16 said _ kind =>
    obtain ⟨alone, ⟨⟩⟩ := Option.ite_none_right_eq_some.1 followed
    obtain ⟨participant, names, rfl, opened, named, -, word, none_⟩ := holds
    rw [Option.isNone_iff_eq_none.1 alone] at named
    cases named with
    | one named => exact ⟨participant, _, token, rfl, opened, named, kind, word, none_⟩
  case h_17 kind =>
    obtain ⟨participant, names, rfl, opened, named, -, word, -⟩ := holds
    exact ⟨[token], participant, names, by simp, opened, named, .one kind, word, rfl⟩
  case h_18 kind => exact Declaring.Holds.derives holds (.one kind)
  case h_19 =>
    obtain ⟨other, named, rfl⟩ := Option.map_eq_some_iff.1 followed
    obtain ⟨participant, first, also, rfl, opened, name, kind, word, none_⟩ := holds
    exact ⟨participant, [first, also, token], rfl, opened, .two name kind named, .none, word, none_⟩
  case h_20 kind =>
    obtain ⟨stereotype, holds⟩ := holds
    exact Declaring.Holds.derives holds (.one kind)
  -- A message.
  case h_21 kind =>
    obtain ⟨first, rfl, named⟩ := holds
    exact ⟨first, token, rfl, named, kind, rfl⟩
  case h_22 =>
    obtain ⟨target, named, rfl⟩ := Option.map_eq_some_iff.1 followed
    obtain ⟨first, shaft, rfl, name, kind, rfl⟩ := holds
    exact ⟨first, shaft, token, rfl, name, kind, rfl, named⟩
  case h_23 kind => exact ⟨tokens, token, rfl, holds, kind, rfl⟩
  case h_24 kind => exact Sends.derives holds .none (.one kind)
  case h_25 kind =>
    obtain ⟨front, sign, rfl, sends, mark, rfl⟩ := holds
    rw [List.append_assoc]
    exact sends.derives (.one mark) (.one kind)
  -- A lifeline.
  case h_26 =>
    obtain ⟨name, named, rfl⟩ := Option.map_eq_some_iff.1 followed
    obtain ⟨activate, rfl, kind⟩ := holds
    exact ⟨activate, token, rfl, kind, named⟩
  case h_27 kind =>
    obtain ⟨activate, first, rfl, opened, named⟩ := holds
    exact .activation opened named (.one kind)
  case h_28 =>
    obtain ⟨name, named, rfl⟩ := Option.map_eq_some_iff.1 followed
    obtain ⟨deactivate, rfl, kind⟩ := holds
    exact .deactivation kind named
  case h_29 =>
    obtain ⟨name, named, rfl⟩ := Option.map_eq_some_iff.1 followed
    obtain ⟨destroy, rfl, kind⟩ := holds
    exact .destruction kind named
  -- A block.
  case h_30 kind =>
    obtain ⟨block, rfl, opened, rfl⟩ := holds
    exact .blockOpen opened (.one kind)
  case h_31 kind =>
    obtain ⟨otherwise, rfl, opened⟩ := holds
    exact .blockElse opened (.one kind)
  -- A note.
  case h_32 kind =>
    obtain ⟨note, rfl, opened⟩ := holds
    exact ⟨note, token, rfl, opened, kind, rfl⟩
  case h_33 kind =>
    obtain ⟨note, rfl, opened⟩ := holds
    exact ⟨note, token, rfl, opened, kind⟩
  case h_34 kind =>
    obtain ⟨note, beside, rfl, opened, side, rfl⟩ := holds
    exact ⟨note, beside, token, rfl, opened, side, rfl, kind⟩
  case h_35 =>
    obtain ⟨name, named, rfl⟩ := Option.map_eq_some_iff.1 followed
    obtain ⟨note, beside, rfl, opened, side, rfl⟩ := holds
    exact ⟨note, [beside, token], rfl, opened, .beside side .none named⟩
  case h_36 =>
    obtain ⟨name, named, rfl⟩ := Option.map_eq_some_iff.1 followed
    obtain ⟨note, beside, mark, rfl, opened, side, rfl, kind⟩ := holds
    exact ⟨note, [beside, mark, token], rfl, opened, .beside side (.one kind) named⟩
  case h_37 =>
    obtain ⟨name, named, rfl⟩ := Option.map_eq_some_iff.1 followed
    exact Stage.noteOver_holds holds named
  case h_38 kind =>
    obtain ⟨note, word, listed, rfl, opened, above, found, -⟩ := holds
    obtain ⟨first, more, rfl⟩ := List.exists_cons_of_ne_nil found.ne_nil
    exact ⟨note, word, listed, token, rfl, opened, above, found, kind⟩
  case h_39 kind =>
    obtain ⟨note, target, rfl, opened, found⟩ := Stage.noteTargets_holds holds
    exact .note opened found kind
  case h_40 kind =>
    obtain ⟨note, target, rfl, opened, found⟩ := Stage.noteTargets_holds holds
    exact ⟨note, target, token, rfl, opened, found, kind⟩
  case h_41 kind =>
    obtain ⟨note, target, lineEnd, rfl, opened, found, ended⟩ := holds
    rw [List.cons_append, List.append_assoc]
    exact .noteLines opened found ended kind

-- Where its line may end, what is in hand is nothing or a statement as its rule derives it.
theorem Stage.complete_derives {last : Option Statement} (holds : stage.Holds tokens)
    (whole : stage.complete? = some last) :
    (last = none ∧ stage = .ready) ∨ ∃ statement, last = some statement ∧ Derives tokens statement := by
  cases stage with
  | ready =>
    cases whole
    exact .inl ⟨rfl, rfl⟩
  | declared said =>
    cases whole
    exact .inr ⟨_, rfl, Declaring.Holds.bare holds⟩
  | stereotyped said =>
    cases whole
    obtain ⟨stereotype, holds⟩ := holds
    exact .inr ⟨_, rfl, holds.bare⟩
  | receiver source shape target =>
    cases whole
    have sent : Derives (tokens ++ []) (.message source.text shape target.text none none) :=
      Sends.derives holds .none .none
    rw [List.append_nil] at sent
    exact .inr ⟨_, rfl, sent⟩
  | marked source shape target mark =>
    cases whole
    obtain ⟨front, sign, rfl, sends, kind, rfl⟩ := holds
    exact .inr ⟨_, rfl, sends.derives (.one kind) .none⟩
  | activated name =>
    cases whole
    obtain ⟨activate, first, rfl, kind, named⟩ := holds
    exact .inr ⟨_, rfl, .activation kind named .none⟩
  | block kind =>
    cases whole
    obtain ⟨block, rfl, opened, rfl⟩ := holds
    exact .inr ⟨_, rfl, .blockOpen opened .none⟩
  | otherwise =>
    cases whole
    obtain ⟨otherwise, rfl, opened⟩ := holds
    exact .inr ⟨_, rfl, .blockElse opened .none⟩
  | whole statement =>
    cases whole
    exact .inr ⟨_, rfl, holds⟩
  | _ => cases whole

end DiagramStream.Sequence
