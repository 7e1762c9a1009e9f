namespace QueueScript

inductive Json.Number where
  | whole (n : Int)
  | float (x : Float)

inductive Json where
  | null
  | bool (b : Bool)
  | number (n : Json.Number)
  | string (s : String)
  | array (items : List Json)
  | object (members : List (String × Json))
  deriving Inhabited

namespace Json

def typeName : Json → String
  | .null => "null"
  | .bool _ => "boolean"
  | .number _ => "number"
  | .string _ => "string"
  | .array _ => "array"
  | .object _ => "object"

def ofNat (n : Nat) : Json := .number (.whole n)

def ofOption (f : α → Json) : Option α → Json
  | none => .null
  | some a => f a

end Json

end QueueScript
