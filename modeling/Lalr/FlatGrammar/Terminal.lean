import Lalr.Grammar.Token

set_option autoImplicit false

/-!
Terminals as they are discovered. A terminal is known by its key, so every use of
the same literal, pattern or name is the same terminal.
-/

namespace Lalr

/-- What makes two terminals one. -/
inductive TerminalKey where
  | endOfInput
  | literal (text : String)
  | pattern (text : String)
  | named (rule : String)
  | keyword (name : String)
  /-- The twin of a token that only matches right behind the token before it. -/
  | immediate (base : TerminalKey)
  | external (name : String)
deriving DecidableEq, Repr

/-- Whether a scanner outside the grammar recognises the terminal. -/
def TerminalKey.isExternal : TerminalKey → Bool
  | .external _ => true
  | _ => false

/-- How the lexer recognises a terminal. -/
inductive TerminalForm where
  | none
  | literal (text : String)
  | pattern (text : String)
  | keyword
deriving DecidableEq, Repr

/-- A terminal with its name and how it is recognised. -/
structure Terminal where
  key : TerminalKey
  name : String
  named : Bool
  visible : Bool
  extra : Bool
  form : TerminalForm
deriving DecidableEq, Repr

namespace Terminal

/-- The end of the input. -/
def endOfInput : Terminal :=
  ⟨.endOfInput, "end", false, false, false, .none⟩

/-- A literal token; it is called by its text. -/
def ofLiteral (text : String) : Terminal :=
  ⟨.literal text, text, false, true, false, .literal text⟩

/-- A keyword. -/
def ofKeyword (name : String) : Terminal :=
  ⟨.keyword name, name, false, true, false, .keyword⟩

/-- An external token. -/
def ofExternal (name : String) : Terminal :=
  ⟨.external name, name, true, !isHiddenName name, false, .none⟩

/-- A pattern without a rule of its own; it never shows up in trees. -/
def ofPattern (name text : String) : Terminal :=
  ⟨.pattern text, name, false, false, false, .pattern text⟩

/-- A lexical rule. -/
def ofRule (name : String) (form : TerminalForm) : Terminal :=
  ⟨.named name, name, true, !isHiddenName name, false, form⟩

/-- The immediate twin of a token; the lexer recognises it as the token itself. -/
def twin (base : Terminal) : Terminal :=
  { base with key := .immediate base.key, extra := false, form := .none }

end Terminal

/-- How the lexer recognises a lexical rule. -/
def Rule.terminalForm (name : String) : Rule → Except GrammarError TerminalForm
  | .literal text => .ok (.literal text)
  | .pattern text => do
      checkPattern name text
      pure (.pattern text)
  | body => do
      let text ← body.patternText name
      checkPattern name text
      pure (.pattern text)

/-- The place of a terminal among those discovered. -/
def terminalIndex? (terminals : List Terminal) (key : TerminalKey) : Option Nat :=
  terminals.findIdx? fun terminal => terminal.key == key

end Lalr
