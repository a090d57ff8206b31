namespace Diorama

inductive Toml where
  | string (s : String)
  | integer (n : Int)
  | float (x : Float)
  | boolean (b : Bool)
  -- a date, a time or both, as written
  | moment (text : String)
  | array (items : List Toml)
  | table (fields : List (String × Toml))

end Diorama
