import LocalEndpoint.Json.Quoted
import LocalEndpoint.Size

/-! Writing JSON: values and their text, without blanks. -/

namespace LocalEndpoint.Json

/-- A value to be written. -/
inductive Value where
  | null
  | bool (b : Bool)
  | number (n : Nat)
  | text (s : String)
  | list (items : List Value)
  | record (members : List (String × Value))

namespace Value

/-- The parts one after the other, with commas between them. -/
def joined : List (List Char) → List Char
  | [] => []
  | [p] => p
  | p :: q :: ps => p ++ ',' :: joined (q :: ps)

mutual

/-- The text of a value. -/
def chars : Value → List Char
  | .null => ['n', 'u', 'l', 'l']
  | .bool true => ['t', 'r', 'u', 'e']
  | .bool false => ['f', 'a', 'l', 's', 'e']
  | .number n => (toString n).toList
  | .text s => quote s.toList
  | .list items => '[' :: (joined (charsOfItems items) ++ [']'])
  | .record members => '\x7b' :: (joined (charsOfMembers members) ++ ['\x7d'])

def charsOfItems : List Value → List (List Char)
  | [] => []
  | v :: vs => v.chars :: charsOfItems vs

def charsOfMembers : List (String × Value) → List (List Char)
  | [] => []
  | (k, v) :: ms => (quote k.toList ++ ':' :: v.chars) :: charsOfMembers ms

end

/-- The text of a value. -/
def render (v : Value) : String := String.ofList v.chars

end Value

end LocalEndpoint.Json
