import Lalr.Tables.Basic
import Lalr.Text.Utf8

set_option autoImplicit false

/-!
Scanners for tokens that no pattern describes. A scanner keeps no state of its own:
what it has to remember travels as a value from one call to the next, so it can be
called at any place in any order.
-/

namespace Lalr

/-- What a scanner remembers between calls, in storage form. -/
structure ScannerState where
  bytes : List UInt8
deriving DecidableEq, Repr, Inhabited

/-- Nothing is remembered. -/
def ScannerState.empty : ScannerState := ⟨[]⟩

/-- The outcome of one call. The bytes examined are those the outcome depends on. -/
inductive ScanOutcome where
  | token (index length : Nat) (state : ScannerState) (examined : Nat)
  | decline (examined : Nat)
deriving DecidableEq, Repr

/-- How many bytes an outcome depends on. -/
def ScanOutcome.examined : ScanOutcome → Nat
  | .token _ _ _ examined => examined
  | .decline examined => examined

/-- A scanner for the external tokens of a grammar. It is given the text from the
place of the token on, and the tokens that are acceptable there. -/
structure Scanner where
  name : String
  tokenCount : Nat
  scan : List Char → ValidExternals → ScannerState → ScanOutcome

namespace Scanner

/-- The scanner of grammars without external tokens. -/
def noExternals : Scanner :=
  ⟨"NoExternals", 0, fun _ _ _ => .decline 0⟩

/-- Calls a scanner at a byte offset; places that do not exist hold no token. -/
def scanAt (scanner : Scanner) (text : List Char) (offset : Nat) (valid : ValidExternals)
    (state : ScannerState) : ScanOutcome :=
  match Text.dropBytes? offset text with
  | none => .decline 0
  | some rest => scanner.scan rest valid state

end Scanner

end Lalr
