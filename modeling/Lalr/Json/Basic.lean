set_option autoImplicit false

/-!
JSON values. Integers and binary numbers are told apart; the members of an object keep their
order.
-/

namespace Lalr

/-- A JSON value. -/
inductive Json where
  | null
  | bool (value : Bool)
  | number (value : Int)
  | float (value : Float)
  | string (text : String)
  | array (items : List Json)
  | object (members : List (String × Json))
deriving Repr, BEq, Inhabited

end Lalr
