set_option autoImplicit false

/-!
Rule expressions, the right-hand sides of a grammar. Besides the text they
describe they say how conflicts are settled and how the resulting nodes are named.
-/

namespace Lalr

/-- Which way a chain of operators of one precedence groups. -/
inductive Associativity where
  | left
  | right
deriving DecidableEq, Repr

/-- A rule expression. -/
inductive Rule where
  /-- The empty text. -/
  | blank
  /-- A literal text, an anonymous token. -/
  | literal (text : String)
  /-- A token given by a pattern. -/
  | pattern (text : String)
  /-- A lexical expression that makes up one token. -/
  | token (body : Rule)
  /-- A keyword, by its canonical name. -/
  | keyword (name : String)
  /-- A named rule or an external token. -/
  | symbol (name : String)
  | seq (items : List Rule)
  | choice (items : List Rule)
  | optional (body : Rule)
  | repeat0 (body : Rule)
  | repeat1 (body : Rule)
  /-- Settles conflicts when tables are built. -/
  | prec (value : Int32) (associativity : Option Associativity) (body : Rule)
  /-- Settles what precedence and associativity leave open. -/
  | dynamicPrec (value : Int32) (body : Rule)
  | field (name : String) (body : Rule)
  /-- Renames the node of the expression. -/
  | aliased (name : String) (named : Bool) (body : Rule)
  /-- A token that starts where the previous one ends. -/
  | immediate (body : Rule)
deriving Repr, Inhabited

namespace Rule

mutual

/-- The symbols an expression refers to, in order of appearance. -/
def referencedSymbols : Rule → List String
  | .blank => []
  | .literal _ => []
  | .pattern _ => []
  | .keyword _ => []
  | .symbol name => [name]
  | .seq items => referencedSymbolsOf items
  | .choice items => referencedSymbolsOf items
  | .token body => body.referencedSymbols
  | .optional body => body.referencedSymbols
  | .repeat0 body => body.referencedSymbols
  | .repeat1 body => body.referencedSymbols
  | .prec _ _ body => body.referencedSymbols
  | .dynamicPrec _ body => body.referencedSymbols
  | .field _ body => body.referencedSymbols
  | .aliased _ _ body => body.referencedSymbols
  | .immediate body => body.referencedSymbols

/-- The symbols of several expressions. -/
def referencedSymbolsOf : List Rule → List String
  | [] => []
  | item :: items => item.referencedSymbols ++ referencedSymbolsOf items

end

/-- Whether a named rule with this body is a token rather than a syntactic rule. -/
def isLexical : Rule → Bool
  | .literal _ => true
  | .pattern _ => true
  | .token _ => true
  | _ => false

/-- One or more expressions separated by commas. -/
def commaSeparated (body : Rule) : Rule :=
  .seq [body, .repeat0 (.seq [.literal ",", body])]

/-! ## Equality -/

mutual

/-- Structural equality of expressions. -/
def beq : Rule → Rule → Bool
  | .blank, .blank => true
  | .literal a, .literal b => a == b
  | .pattern a, .pattern b => a == b
  | .token a, .token b => a.beq b
  | .keyword a, .keyword b => a == b
  | .symbol a, .symbol b => a == b
  | .seq a, .seq b => beqAll a b
  | .choice a, .choice b => beqAll a b
  | .optional a, .optional b => a.beq b
  | .repeat0 a, .repeat0 b => a.beq b
  | .repeat1 a, .repeat1 b => a.beq b
  | .prec v p a, .prec w q b => v == w && p == q && a.beq b
  | .dynamicPrec v a, .dynamicPrec w b => v == w && a.beq b
  | .field m a, .field n b => m == n && a.beq b
  | .aliased m p a, .aliased n q b => m == n && p == q && a.beq b
  | .immediate a, .immediate b => a.beq b
  | _, _ => false

/-- Structural equality of lists of expressions. -/
def beqAll : List Rule → List Rule → Bool
  | [], [] => true
  | a :: as, b :: bs => a.beq b && beqAll as bs
  | _, _ => false

end

mutual

theorem eq_of_beq : ∀ {a b : Rule}, a.beq b = true → a = b
  | .blank, b, same => by cases b <;> simp [beq] at same ⊢
  | .literal _, b, same => by cases b <;> simp_all [beq]
  | .pattern _, b, same => by cases b <;> simp_all [beq]
  | .keyword _, b, same => by cases b <;> simp_all [beq]
  | .symbol _, b, same => by cases b <;> simp_all [beq]
  | .token a, b, same => by
      cases b <;> simp [beq] at same
      rw [eq_of_beq same]
  | .seq as, b, same => by
      cases b <;> simp [beq] at same
      rw [eq_of_beqAll same]
  | .choice as, b, same => by
      cases b <;> simp [beq] at same
      rw [eq_of_beqAll same]
  | .optional a, b, same => by
      cases b <;> simp [beq] at same
      rw [eq_of_beq same]
  | .repeat0 a, b, same => by
      cases b <;> simp [beq] at same
      rw [eq_of_beq same]
  | .repeat1 a, b, same => by
      cases b <;> simp [beq] at same
      rw [eq_of_beq same]
  | .prec _ _ a, b, same => by
      cases b <;> simp [beq] at same
      rw [same.1.1, same.1.2, eq_of_beq same.2]
  | .dynamicPrec _ a, b, same => by
      cases b <;> simp [beq] at same
      rw [same.1, eq_of_beq same.2]
  | .field _ a, b, same => by
      cases b <;> simp [beq] at same
      rw [same.1, eq_of_beq same.2]
  | .aliased _ _ a, b, same => by
      cases b <;> simp [beq] at same
      rw [same.1.1, same.1.2, eq_of_beq same.2]
  | .immediate a, b, same => by
      cases b <;> simp [beq] at same
      rw [eq_of_beq same]

theorem eq_of_beqAll : ∀ {as bs : List Rule}, beqAll as bs = true → as = bs
  | [], bs, same => by cases bs <;> simp [beqAll] at same ⊢
  | a :: as, bs, same => by
      cases bs <;> simp [beqAll] at same
      rw [eq_of_beq same.1, eq_of_beqAll same.2]

end

mutual

theorem beq_self : ∀ (a : Rule), a.beq a = true
  | .blank => rfl
  | .literal _ => by simp [beq]
  | .pattern _ => by simp [beq]
  | .keyword _ => by simp [beq]
  | .symbol _ => by simp [beq]
  | .token a => by simp [beq, beq_self a]
  | .seq as => by simp [beq, beqAll_self as]
  | .choice as => by simp [beq, beqAll_self as]
  | .optional a => by simp [beq, beq_self a]
  | .repeat0 a => by simp [beq, beq_self a]
  | .repeat1 a => by simp [beq, beq_self a]
  | .prec _ _ a => by simp [beq, beq_self a]
  | .dynamicPrec _ a => by simp [beq, beq_self a]
  | .field _ a => by simp [beq, beq_self a]
  | .aliased _ _ a => by simp [beq, beq_self a]
  | .immediate a => by simp [beq, beq_self a]

theorem beqAll_self : ∀ (as : List Rule), beqAll as as = true
  | [] => rfl
  | a :: as => by simp [beqAll, beq_self a, beqAll_self as]

end

instance : DecidableEq Rule := fun a b =>
  if same : a.beq b = true then isTrue (eq_of_beq same)
  else isFalse fun equal => same (equal ▸ beq_self a)

end Rule

end Lalr
