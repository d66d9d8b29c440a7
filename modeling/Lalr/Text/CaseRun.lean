set_option autoImplicit false

/-!
Maps from one letter case to another, given as runs of letters that move by the same
distance.
-/

namespace Lalr.Text

/-- A run of letters: every `step`-th code point from `first` to `last` has its
counterpart `shift` places further. -/
structure CaseRun where
  first : Nat
  last : Nat
  step : Nat
  shift : Int
deriving DecidableEq, Repr

namespace CaseRun

/-- The counterpart of a code point of the run. -/
def image (run : CaseRun) (code : Nat) : Nat :=
  (code + run.shift).toNat

/-- The counterpart of a code point according to ascending runs; the search ends at the
first run that starts beyond the code point. Other code points are kept. -/
def apply (code : Nat) : List CaseRun → Nat
  | [] => code
  | run :: runs =>
      if code < run.first then code
      else if code ≤ run.last then
        if (code - run.first) % run.step = 0 then run.image code else code
      else apply code runs

/-- The code points of a run. -/
def codes (run : CaseRun) : List Nat :=
  (List.range ((run.last - run.first) / run.step + 1)).map fun index =>
    run.first + index * run.step

/-- The code points of a run with their counterparts. -/
def pairs (run : CaseRun) : List (Nat × Nat) :=
  run.codes.map fun code => (code, run.image code)

end CaseRun

end Lalr.Text
