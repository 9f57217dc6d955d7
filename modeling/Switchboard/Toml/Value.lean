/-!
# TOML values

The values that a TOML document holds. Floats and dates are kept as they are written: the settings
have no field of either kind.
-/

namespace Switchboard.Toml

/-- A value. -/
inductive Value where
  | string (text : String)
  | integer (value : Int)
  /-- A number with a fraction or an exponent, as written. -/
  | float (text : String)
  | boolean (value : Bool)
  | datetime (text : String)
  | array (items : List Value)
  /-- Values by key, in the order of the document. -/
  | table (entries : List (String × Value))

end Switchboard.Toml
