/-!
# JSON documents

The values of JSON. Members keep their order. How a document is written as a text is not part of
the value: that is left to a library.
-/

namespace AccessRules

/-- A JSON document. -/
inductive Json where
  | null
  | bool (value : Bool)
  | number (value : Nat)
  | string (value : String)
  | array (items : List Json)
  | object (members : List (String × Json))

end AccessRules
