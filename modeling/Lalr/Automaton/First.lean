import Lalr.Automaton.TokenSet
import Lalr.FlatGrammar.Basic

set_option autoImplicit false

/-!
What the symbols of a grammar can begin with: the terminals that may come first in
what a symbol derives, and whether it derives the empty sequence.
-/

namespace Lalr

/-- The terminals something can begin with, and whether it can be empty. -/
structure Beginning where
  tokens : TokenSet
  nullable : Bool
deriving DecidableEq, Repr, Inhabited

namespace Beginning

/-- Nothing is known to be derived. -/
def none : Beginning := ⟨.empty, false⟩

/-- The beginning of the empty sequence. -/
def empty : Beginning := ⟨.empty, true⟩

/-- The beginning of one thing behind another. -/
def append (first second : Beginning) : Beginning :=
  if first.nullable then ⟨first.tokens.union second.tokens, second.nullable⟩
  else ⟨first.tokens, false⟩

/-- The terminals that can come first when the given ones follow. -/
def followedBy (beginning : Beginning) (follow : TokenSet) : TokenSet :=
  if beginning.nullable then beginning.tokens.union follow else beginning.tokens

end Beginning

/-- The beginning of every nonterminal, by its place among the nonterminals. -/
@[ext] structure FirstSets where
  terminalCount : Nat
  beginnings : Array Beginning
deriving DecidableEq, Repr, Inhabited

namespace FirstSets

/-- The beginning of a symbol. -/
def ofSymbol (sets : FirstSets) (symbol : Nat) : Beginning :=
  if symbol < sets.terminalCount then ⟨TokenSet.empty.insert symbol, false⟩
  else sets.beginnings.getD (symbol - sets.terminalCount) .none

/-- The beginning of a sequence of symbols. -/
def ofSequence (sets : FirstSets) : List Nat → Beginning
  | [] => .empty
  | symbol :: symbols => (sets.ofSymbol symbol).append (sets.ofSequence symbols)

/-- Adds the terminals that a right-hand side can begin with to those of the nonterminal at a place,
up to the first symbol that is not nullable. The two answers tell whether a terminal is new and
whether there is no such symbol. -/
def scan (sets : FirstSets) (place : Nat) : List Nat → TokenSet → Bool → TokenSet × Bool × Bool
  | [], tokens, changed => (tokens, changed, true)
  | symbol :: symbols, tokens, changed =>
      if symbol < sets.terminalCount then
        let added := tokens.insertNew symbol
        (added.1, changed || added.2, false)
      else
        let other := symbol - sets.terminalCount
        let beginning := sets.beginnings.getD other .none
        let added := if other = place then (tokens, false) else tokens.addAll beginning.tokens
        if beginning.nullable then scan sets place symbols added.1 (changed || added.2)
        else (added.1, changed || added.2, false)

/-- Takes one production into account; the flag tells whether anything was new so far. -/
def withProduction (state : FirstSets × Bool) (production : Production) : FirstSets × Bool :=
  let sets := state.1
  let place := production.lhs - sets.terminalCount
  match sets.beginnings[place]? with
  | none => state
  | some own =>
      let scanned := sets.scan place production.rhs own.tokens state.2
      let tokens := scanned.1
      let changed := scanned.2.1
      let empty := scanned.2.2
      ({ sets with beginnings := sets.beginnings.set! place ⟨tokens, own.nullable || empty⟩ },
        changed || (empty && !own.nullable))

/-- Takes every production into account once. -/
def round (grammar : FlatGrammar) (sets : FirstSets) : FirstSets × Bool :=
  grammar.productions.foldl withProduction (sets, false)

/-- Repeats rounds until one finds nothing new, at most `limit` times. -/
def settle (grammar : FlatGrammar) : Nat → FirstSets → FirstSets
  | 0, sets => sets
  | limit + 1, sets =>
      match sets.round grammar with
      | (next, true) => settle grammar limit next
      | (next, false) => next

/-- Before the first round nothing is known of any nonterminal. -/
def start (grammar : FlatGrammar) : FirstSets :=
  ⟨grammar.terminalCount, Array.replicate grammar.nonterminalCount .none⟩

/-- The beginnings of a grammar's nonterminals. Each round before the last adds a
terminal or a nullable nonterminal, which bounds their number. -/
def ofGrammar (grammar : FlatGrammar) : FirstSets :=
  settle grammar (grammar.nonterminalCount * (grammar.terminalCount + 1) + 1) (start grammar)

end FirstSets

end Lalr
