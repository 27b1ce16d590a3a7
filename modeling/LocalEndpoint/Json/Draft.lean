import LocalEndpoint.Json.Token

/-! What a JSON text says as far as it goes. A draft is a value in which the place where the text
    breaks off is marked, so that a reader of the draft, going from left to right, finds the faults
    of structure and the faults of content in the order of the text. -/

namespace LocalEndpoint.Json

/-- A value, with the place where the text breaks off, if it does. -/
inductive Draft where
  | null
  | bool (b : Bool)
  | number (n : Numeral)
  | text (s : Option String)
  | list (items : List Draft) (closed : Bool)
  | record (members : List (Option String × Draft)) (closed : Bool)
  /-- No value stands here. -/
  | broken

/-- A list or record that is being read, its contents in reverse; a record with the key whose value
    is being read. -/
inductive Frame where
  | list (done : List Draft)
  | record (done : List (Option String × Draft)) (key : Option String)

/-- What may come next, given the frames around it. -/
inductive Expects where
  | value
  /-- A value, or the end of an empty list. -/
  | firstItem
  /-- A key, or the end of an empty record. -/
  | firstKey
  | key (done : List (Option String × Draft))
  | colon (done : List (Option String × Draft)) (key : Option String)
  /-- A comma or the end, in a list. -/
  | moreItems (done : List Draft)
  /-- A comma or the end, in a record. -/
  | moreMembers (done : List (Option String × Draft))

/-- How far the reading of a text has come. -/
inductive Reading where
  | going (frames : List Frame) (expects : Expects)
  /-- The value has ended; `followed` tells whether anything comes after it. -/
  | ended (d : Draft) (followed : Bool)

namespace Reading

/-- A value is complete. -/
def complete (frames : List Frame) (d : Draft) : Reading :=
  match frames with
  | [] => .ended d false
  | .list done :: fs => .going fs (.moreItems (d :: done))
  | .record done key :: fs => .going fs (.moreMembers ((key, d) :: done))

/-- The value that stands when the text breaks off after `d`. -/
def unwind (frames : List Frame) (d : Draft) : Draft :=
  frames.foldl (fun d f =>
    match f with
    | .list done => .list (d :: done).reverse false
    | .record done key => .record ((key, d) :: done).reverse false) d

/-- What stands when the text breaks off. -/
def cut (frames : List Frame) : Expects → Draft
  | .value => unwind frames .broken
  | .firstItem => unwind frames (.list [] false)
  | .firstKey => unwind frames (.record [] false)
  | .key done | .moreMembers done => unwind frames (.record done.reverse false)
  | .colon done key => unwind frames (.record ((key, .broken) :: done).reverse false)
  | .moreItems done => unwind frames (.list done.reverse false)

/-- The text breaks off where something else was expected. -/
def breakOff (frames : List Frame) (expects : Expects) : Reading :=
  .ended (cut frames expects) false

/-- A token where a value may start. -/
def startValue (frames : List Frame) (otherwise : Reading) : Token → Reading
  | .null => complete frames .null
  | .bool b => complete frames (.bool b)
  | .number n => complete frames (.number n)
  | .text s => complete frames (.text s)
  | .openList => .going frames .firstItem
  | .openRecord => .going frames .firstKey
  | _ => otherwise

/-- Takes one token. -/
def step : Reading → Token → Reading
  | .ended d _, _ => .ended d true
  | .going fs .value, t => startValue fs (breakOff fs .value) t
  | .going fs .firstItem, .closeList => complete fs (.list [] true)
  | .going fs .firstItem, t =>
    startValue (.list [] :: fs) (breakOff (.list [] :: fs) .value) t
  | .going fs .firstKey, .text s => .going fs (.colon [] s)
  | .going fs .firstKey, .closeRecord => complete fs (.record [] true)
  | .going fs .firstKey, _ => breakOff fs .firstKey
  | .going fs (.key done), .text s => .going fs (.colon done s)
  | .going fs (.key done), _ => breakOff fs (.key done)
  | .going fs (.colon done key), .colon => .going (.record done key :: fs) .value
  | .going fs (.colon done key), _ => breakOff fs (.colon done key)
  | .going fs (.moreItems done), .comma => .going (.list done :: fs) .value
  | .going fs (.moreItems done), .closeList => complete fs (.list done.reverse true)
  | .going fs (.moreItems done), _ => breakOff fs (.moreItems done)
  | .going fs (.moreMembers done), .comma => .going fs (.key done)
  | .going fs (.moreMembers done), .closeRecord => complete fs (.record done.reverse true)
  | .going fs (.moreMembers done), _ => breakOff fs (.moreMembers done)

/-- The end of the text: what is not complete breaks off. -/
def finish : Reading → Draft × Bool
  | .ended d followed => (d, followed)
  | .going fs expects => (cut fs expects, false)

end Reading

/-- The draft of a text, and whether anything follows it. -/
def Draft.ofTokens (ts : List Token) : Draft × Bool :=
  (ts.foldl Reading.step (.going [] .value)).finish

end LocalEndpoint.Json
