import DiagramStream.Proofs.Scan.Leading
import DiagramStream.Dot.Grammar

/-!
Graph statements as texts, in one form of the many that are read alike. Main statement: a text in quotes stands for
itself, whatever stands behind the closing quote.
-/

namespace DiagramStream.Dot
open Text Scan

-- Quotes are escaped, so a text goes through unless it brings backslashes of its own.
def Plain (text : String) : Prop := '\\' ∉ text.toList

instance (text : String) : Decidable (Plain text) := inferInstanceAs (Decidable ('\\' ∉ text.toList))

def escape (text : List Char) : List Char := text.flatMap fun c => if c = '"' then ['\\', '"'] else [c]

def quote (text : String) : List Char := '"' :: (escape text.toList ++ ['"'])

@[simp] theorem escape_quote (text : List Char) : escape ('"' :: text) = '\\' :: '"' :: escape text := rfl

theorem escape_other {c : Char} (other : c ≠ '"') (text : List Char) : escape (c :: text) = c :: escape text := by
  simp [escape, other]

theorem quotedLength_escape {text : List Char} (plain : '\\' ∉ text) (count : Nat) (rest : List Char) :
    quotedLength false count (escape text ++ '"' :: rest) = count + (escape text).length + 1 := by
  induction text generalizing count with
  | nil => rfl
  | cons c text ih =>
    obtain ⟨other, later⟩ : '\\' ≠ c ∧ '\\' ∉ text := by simpa using plain
    by_cases mark : c = '"'
    · subst mark
      have step : quotedLength false count ('\\' :: '"' :: (escape text ++ '"' :: rest)) =
          quotedLength false (count + 1 + 1) (escape text ++ '"' :: rest) := rfl
      rw [escape_quote, List.cons_append, List.cons_append, step, ih later]
      simp only [List.length_cons]
      omega
    · rw [escape_other mark, List.cons_append, quotedLength, if_neg Bool.false_ne_true, if_neg (Ne.symm other),
        if_neg mark, ih later, List.length_cons]
      omega

theorem joinContinued_escape {text : List Char} (plain : '\\' ∉ text) : joinContinued (escape text) = escape text := by
  induction text with
  | nil => rfl
  | cons c text ih =>
    obtain ⟨other, later⟩ : '\\' ≠ c ∧ '\\' ∉ text := by simpa using plain
    by_cases mark : c = '"'
    · subst mark
      simp [joinContinued, ih later]
    · rw [escape_other mark]
      simp [joinContinued, Ne.symm other, ih later]

theorem bareQuotes_escape {text : List Char} (plain : '\\' ∉ text) : bareQuotes (escape text) = text := by
  induction text with
  | nil => rfl
  | cons c text ih =>
    obtain ⟨other, later⟩ : '\\' ≠ c ∧ '\\' ∉ text := by simpa using plain
    by_cases mark : c = '"'
    · subst mark
      simp [bareQuotes, ih later]
    · rw [escape_other mark]
      simp [bareQuotes, Ne.symm other, ih later]

theorem idText_quote {text : String} (plain : Plain text) (place : Position) (offset : Nat) :
    idText ⟨.quoted, quote text, place, offset⟩ = text := by
  have bare : inner (quote text) = escape text.toList := by
    rw [inner, quote, List.drop_one, List.tail_cons, List.dropLast_concat]
  simp only [idText, bare, joinContinued_escape plain, bareQuotes_escape plain, String.ofList_toList]

-- The words of a text

-- In front of the rest a word is read as one token.
def Lexes (kind : Kind) (word rest : List Char) : Prop :=
  kind.ignored = false ∧ ∃ count, count + 1 = word.length ∧
    firstMatch rules (fun _ => true) (word ++ rest) = some (kind, count)

theorem lexes_quote {text : String} (plain : Plain text) (rest : List Char) : Lexes .quoted (quote text) rest := by
  refine ⟨rfl, (escape text.toList).length + 1, by simp [quote], ?_⟩
  refine firstMatch_at 9 rfl rfl ?_ ?_
  · have length := quotedLength_escape plain 1 rest
    rw [quote, List.cons_append, List.append_assoc]
    exact length.trans (by omega)
  · intro entry listed _
    have silent : ((rules.take 9).all fun entry => entry.2 (quote text ++ rest) == 0) = true := rfl
    exact beq_iff_eq.1 (List.all_eq_true.1 silent entry listed)

theorem lexes_operator {operator : String} (known : operator = "->" ∨ operator = "--") (rest : List Char) :
    Lexes .operator operator.toList rest := by
  rcases known with rfl | rfl
  · exact ⟨rfl, 1, rfl, rfl⟩
  · exact ⟨rfl, 1, rfl, rfl⟩

-- Written statements

def writtenRef (ref : NodeRef) : List Char := quote ref.name ++ (ref.port.elim [] fun port => ':' :: quote port)

-- A single end stands alone, any other number of them in braces.
def writtenGroup : List NodeRef → List Char
  | [ref] => writtenRef ref
  | refs => '\x7b' :: (refs.flatMap (fun ref => ' ' :: writtenRef ref) ++ [' ', '\x7d'])

-- An operator and the group it leads to.
def writtenLink (link : String × List NodeRef) : List Char :=
  ' ' :: (link.1.toList ++ ' ' :: writtenGroup link.2)

def writtenPair (entry : String × String) : List Char := quote entry.1 ++ '=' :: quote entry.2

def writtenPairs : List (String × String) → List Char
  | [] => []
  | [entry] => writtenPair entry
  | entry :: rest => writtenPair entry ++ ',' :: ' ' :: writtenPairs rest

def writtenAttrs (attrs : Attrs) : List Char := ' ' :: '[' :: (writtenPairs attrs.entries ++ [']'])

def writtenTail (attrs : Attrs) : List Char := if attrs.isEmpty then [] else writtenAttrs attrs

def writtenName (name : Option String) : List Char := name.elim [] fun name => ' ' :: quote name

def writtenGraph (directed strict : Bool) : List Char :=
  (if strict then "strict ".toList else []) ++ (if directed then "digraph".toList else "graph".toList)

def writtenScope (name : Option String) : List Char :=
  name.elim ['\x7b'] fun name => "subgraph".toList ++ (writtenName (some name) ++ [' ', '\x7b'])

-- Statements of sequence diagrams have no such form.
def written : Statement → List Char
  | .graphOpen directed strict name => writtenGraph directed strict ++ (writtenName name ++ [' ', '\x7b'])
  | .subgraphOpen name => writtenScope name
  | .scopeClose endpoints operators attrs =>
    '\x7d' :: ((operators.zip endpoints).flatMap writtenLink ++ writtenTail attrs)
  | .nodeStatement node attrs => writtenRef node ++ writtenTail attrs
  | .edgeStatement endpoints operators attrs =>
    writtenGroup (endpoints.headD []) ++ ((operators.zip endpoints.tail).flatMap writtenLink ++ writtenTail attrs)
  | .attrStatement target attrs => target.toList ++ writtenAttrs attrs
  | .assignment key value => writtenPair (key, value)
  | _ => []

def writtenLines (statements : List Statement) : List Char :=
  statements.flatMap fun statement => written statement ++ ['\n']

-- Statements with such a form

-- Braces need not balance, and a closing one may be the first end of a chain.
def Shaped : Statement → Prop
  | .edgeStatement endpoints operators _ =>
    endpoints.head?.map List.length = some 1 ∧ operators ≠ [] ∧ endpoints.length = operators.length + 1 ∧
      ∀ operator ∈ operators, operator = "->" ∨ operator = "--"
  | .scopeClose endpoints operators attrs =>
    endpoints.length = operators.length ∧ (operators = [] → attrs = Table.empty) ∧
      ∀ operator ∈ operators, operator = "->" ∨ operator = "--"
  | .attrStatement target _ => target = "graph" ∨ target = "node" ∨ target = "edge"
  | .subgraphOpen _ => True
  | .nodeStatement .. => True
  | .assignment .. => True
  | _ => False

instance : (statement : Statement) → Decidable (Shaped statement)
  | .edgeStatement .. => inferInstanceAs (Decidable (_ ∧ _ ∧ _ ∧ _))
  | .scopeClose .. => inferInstanceAs (Decidable (_ ∧ _ ∧ _))
  | .attrStatement .. => inferInstanceAs (Decidable (_ ∨ _ ∨ _))
  | .subgraphOpen _ | .nodeStatement .. | .assignment .. => .isTrue trivial
  | .declaration .. | .message .. | .activation .. | .deactivation .. | .destruction .. | .note .. | .divider ..
  | .blockOpen .. | .blockElse .. | .blockEnd | .comment .. | .graphOpen .. | .vacant => .isFalse id

-- A graph is opened at the beginning and nowhere else.
def ShapedGraph : List Statement → Prop
  | .graphOpen .. :: rest => ∀ statement ∈ rest, Shaped statement
  | _ => False

def refTexts (ref : NodeRef) : List String := ref.name :: ref.port.toList

def pairTexts (attrs : Attrs) : List String := attrs.entries.flatMap fun entry => [entry.1, entry.2]

-- The names, ports, keys and values of a statement.
def texts : Statement → List String
  | .graphOpen _ _ name => name.toList
  | .subgraphOpen name => name.toList
  | .scopeClose endpoints _ attrs => endpoints.flatten.flatMap refTexts ++ pairTexts attrs
  | .nodeStatement node attrs => refTexts node ++ pairTexts attrs
  | .edgeStatement endpoints _ attrs => endpoints.flatten.flatMap refTexts ++ pairTexts attrs
  | .attrStatement _ attrs => pairTexts attrs
  | .assignment key value => [key, value]
  | _ => []

end DiagramStream.Dot
