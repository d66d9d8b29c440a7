import Lalr.Grammar.Error
import Lalr.Grammar.Rule

set_option autoImplicit false

/-!
Grammars: named rules with extras, external tokens, keywords and conflict entries.
The first rule is the start rule; rules whose name starts with an underscore are
hidden in syntax trees.
-/

namespace Lalr

/-- A keyword: the name of its terminal and the spellings it is written with. -/
structure Keyword where
  name : String
  spellings : List String
deriving DecidableEq, Repr

/-- A grammar as it is written down, before its structure is checked. -/
structure GrammarDraft where
  name : String
  rules : List (String × Rule) := []
  /-- Tokens allowed anywhere between other tokens; blank characters need no entry. -/
  extras : List Rule := []
  /-- External tokens in the order their scanner numbers them. -/
  externals : List String := []
  keywords : List Keyword := []
  /-- The lexical rule whose matches are looked up among the keywords. -/
  word : Option String := none
  /-- Each entry names rules; an earlier name wins a conflict nothing else settles. -/
  conflicts : List (List String) := []
deriving Repr

/-- A grammar whose rules have distinct names. -/
structure Grammar extends GrammarDraft where
  names_nodup : (rules.map Prod.fst).Nodup

/-- The first entry of a list that repeats an earlier one. -/
def firstRepeated? (seen : List String) : List String → Option String
  | [] => none
  | name :: names => if name ∈ seen then some name else firstRepeated? (name :: seen) names

theorem firstRepeated?_eq_none_iff {seen names : List String} :
    firstRepeated? seen names = none ↔ names.Nodup ∧ ∀ name ∈ names, name ∉ seen := by
  induction names generalizing seen with
  | nil => simp [firstRepeated?]
  | cons name names ih =>
      by_cases repeated : name ∈ seen
      · simp [firstRepeated?, repeated]
      · simp only [firstRepeated?, repeated, if_false, ih, List.nodup_cons, List.mem_cons,
          forall_eq_or_imp, not_or]
        grind

namespace GrammarDraft

/-- Checks what can be checked without looking into the rules. -/
def build (draft : GrammarDraft) : Except GrammarError Grammar :=
  if draft.rules.isEmpty then .error (.noRules draft.name)
  else
    match repeated : firstRepeated? [] (draft.rules.map Prod.fst) with
    | some name => .error (.duplicateRule name)
    | none =>
        match firstRepeated? [] draft.externals with
        | some name => .error (.duplicateExternal name)
        | none =>
            if 64 < draft.externals.length then
              .error (.tooManyExternals draft.externals.length)
            else
              match draft.keywords.find? fun keyword => keyword.spellings.isEmpty with
              | some keyword => .error (.emptyKeyword keyword.name)
              | none =>
                  .ok { draft with names_nodup := (firstRepeated?_eq_none_iff.mp repeated).1 }

end GrammarDraft

namespace Grammar

/-- The name of the start rule. -/
def startRule? (grammar : Grammar) : Option String :=
  grammar.rules.head?.map Prod.fst

/-- The body of a rule. -/
def rule? (grammar : Grammar) (name : String) : Option Rule :=
  grammar.rules.lookup name

/-- The keyword of a terminal; the first definition of a name counts. -/
def keyword? (grammar : Grammar) (name : String) : Option Keyword :=
  grammar.keywords.find? fun keyword => keyword.name == name

/-- Whether a name is that of a lexical rule. -/
def isLexicalRule (grammar : Grammar) (name : String) : Bool :=
  (grammar.rule? name).any Rule.isLexical

/-- The names of the syntactic rules, in order. -/
def syntacticRules (grammar : Grammar) : List String :=
  (grammar.rules.filter fun entry => !entry.2.isLexical).map Prod.fst

end Grammar

/-- Names that start with an underscore are hidden in syntax trees. -/
def isHiddenName (name : String) : Bool :=
  name.toList.head? == some '_'

end Lalr
