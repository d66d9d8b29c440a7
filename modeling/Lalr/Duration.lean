set_option autoImplicit false

/-!
Durations as people read them.
-/

namespace Lalr

/-- A duration in milliseconds. -/
structure Duration where
  milliseconds : Nat
deriving DecidableEq, Repr, Inhabited

namespace Duration

/-- A number of milliseconds below a thousand in three digits. -/
def threeDigits (number : Nat) : String :=
  String.ofList ([100, 10, 1].map fun place => Nat.digitChar (number / place % 10))

/-- A duration in milliseconds below a second, in seconds with three places below a
minute, and in minutes and whole seconds from there on. -/
def render (duration : Duration) : String :=
  let seconds := duration.milliseconds / 1000
  let rest := duration.milliseconds % 1000
  if seconds = 0 then toString rest ++ "ms"
  else if seconds < 60 then toString seconds ++ "." ++ threeDigits rest ++ "s"
  else toString (seconds / 60) ++ "m " ++ toString (seconds % 60) ++ "s"

end Duration

end Lalr
