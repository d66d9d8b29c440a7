set_option autoImplicit false

/-!
Settings and figures of a parse.
-/

namespace Lalr

/-- How error recovery may proceed. -/
structure ParseConfig where
  /-- How many tokens may be skipped to find one that fits. -/
  maxSkipTokens : Nat := 4
  /-- Whether a missing token may be put in. -/
  insertMissing : Bool := true
deriving DecidableEq, Repr, Inhabited

/-- How much of an old tree a parse took over. -/
structure ParseStats where
  reusedNodes : Nat := 0
  reusedBytes : Nat := 0
deriving DecidableEq, Repr, Inhabited

end Lalr
