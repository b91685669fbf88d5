namespace WhileSyntax.Toml

/-! # TOML values -/

/-- A value. Floats and dates are kept as they are written. -/
inductive Value where
  | string (text : String)
  | integer (n : Int)
  | float (text : String)
  | boolean (b : Bool)
  | datetime (text : String)
  | array (items : List Value)
  | table (entries : List (String × Value))
  deriving Repr, Inhabited

/-- The keys of a table with their values, in the order in which they were written. -/
abbrev Table := List (String × Value)

def Table.get? (t : Table) (key : String) : Option Value :=
  t.lookup key

end WhileSyntax.Toml
