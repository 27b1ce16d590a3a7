import LocalEndpoint.Json.Draft

/-! Reading typed values from drafts. A record may be written by its members, in any order, or as
    the list of its fields in order; one of named values may be written as its name or as a record
    whose only key is the name and whose value is null. Faults are reported in the order of the
    text, a missing field at the record's end. -/

namespace LocalEndpoint.Json

/-- Why a text denotes no value of the type asked for. -/
inductive DecodeError where
  | missingField (name : String)
  | unknownField (name : String)
  | duplicateField (name : String)
  | unknownVariant (name : String)
  /-- A value of another type stands there. -/
  | wrongType
  /-- A number of the right type is out of range. -/
  | outOfRange
  /-- A list of fields is too short. -/
  | tooShort
  /-- A length of time is too long. -/
  | tooLong
  /-- The text is no JSON, or there is too much of it. -/
  | malformed
  deriving DecidableEq

/-- A reader of values of type `α`. -/
abbrev Decoder (α : Type) := Draft → Except DecodeError α

/-- The fault of a value that stands where another type belongs: its own, if it has one. -/
def mismatch : Draft → DecodeError
  | .broken | .text none => .malformed
  | .number n => if n.kind = .tooLarge then .malformed else .wrongType
  | _ => .wrongType

/-! ### Plain values -/

def decodeBool : Decoder Bool
  | .bool b => .ok b
  | d => .error (mismatch d)

def decodeNull : Decoder Unit
  | .null => .ok ()
  | d => .error (mismatch d)

/-- A count of a machine word. -/
def decodeSize : Decoder Size
  | .number n =>
    match n.kind with
    | .count k => .ok k
    | .negative => .error .outOfRange
    | .real => .error .wrongType
    | .tooLarge => .error .malformed
  | d => .error (mismatch d)

/-- A count of 32 bits. -/
def decodeWord (d : Draft) : Except DecodeError UInt32 := do
  let n ← decodeSize d
  if n.toNat < UInt32.size then .ok (UInt32.ofNat n.toNat) else .error .outOfRange

/-- One of named values. -/
def decodeName {α : Type} (all : List α) (name : α → String) (s : String) : Except DecodeError α :=
  match all.find? (name · == s) with
  | some a => .ok a
  | none => .error (.unknownVariant s)

/-- One of named values, alone or as a key. -/
def decodeNamed {α : Type} (all : List α) (name : α → String) : Decoder α
  | .text (some s) => decodeName all name s
  | .record ((some s, d) :: rest) closed => do
    let a ← decodeName all name s
    decodeNull d
    if rest.isEmpty && closed then .ok a else .error .malformed
  | _ => .error .malformed

/-! ### Records -/

/-- A field of a record that is being collected in `σ`. -/
structure Field (σ : Type) where
  name : String
  /-- Whether the field has been read. -/
  present : σ → Bool
  /-- Reads the field. -/
  store : Draft → σ → Except DecodeError σ

/-- A field whose value is kept as an option. -/
def Field.ofOption {σ α : Type} (name : String) (decode : Decoder α) (get : σ → Option α)
    (set : σ → α → σ) : Field σ where
  name := name
  present s := (get s).isSome
  store d s := (decode d).map (set s)

/-- How a record is read: its fields in order, and what is made of them in the end. -/
structure RecordFormat (σ α : Type) where
  fields : List (Field σ)
  /-- Whether other fields are faults; else they are skipped. -/
  strict : Bool := false
  start : σ
  finish : σ → Except DecodeError α

namespace RecordFormat

variable {σ α : Type}

/-- Reads members in the order in which they stand. -/
def readMembers (f : RecordFormat σ α) : List (Option String × Draft) → σ → Except DecodeError σ
  | [], s => .ok s
  | (none, _) :: _, _ => .error .malformed
  | (some k, d) :: rest, s =>
    match f.fields.find? (·.name == k) with
    | some field =>
      if field.present s then .error (.duplicateField k)
      else
        match field.store d s with
        | .ok s => f.readMembers rest s
        | .error e => .error e
    | none => if f.strict then .error (.unknownField k) else f.readMembers rest s

/-- Reads items into fields, as far as there are both. -/
def readItems : List (Field σ) → List Draft → σ →
    Except DecodeError (σ × List (Field σ) × List Draft)
  | field :: fields, d :: ds, s =>
    match field.store d s with
    | .ok s => readItems fields ds s
    | .error e => .error e
  | fields, ds, s => .ok (s, fields, ds)

/-- What a list makes of a missing field. -/
def shortfall : DecodeError → DecodeError
  | .missingField _ => .tooShort
  | e => e

/-- Reads a record in either form. -/
def decode (f : RecordFormat σ α) : Decoder α
  | .record members closed =>
    match f.readMembers members f.start with
    | .error e => .error e
    | .ok s => if closed then f.finish s else .error .malformed
  | .list items closed =>
    match readItems f.fields items f.start with
    | .error e => .error e
    | .ok (s, fields, rest) =>
      if !fields.isEmpty && !closed then .error .malformed
      else
        match f.finish s with
        | .error e => .error (shortfall e)
        | .ok a => if rest.isEmpty && closed then .ok a else .error .malformed
  | d => .error (mismatch d)

end RecordFormat

/-- A field that must be there. -/
def require {α : Type} (name : String) : Option α → Except DecodeError α
  | some a => .ok a
  | none => .error (.missingField name)

/-- Reads a whole text. -/
def decodeText {α : Type} (decode : Decoder α) (text : String) : Except DecodeError α :=
  let p := Draft.ofTokens (lex text.toList)
  match decode p.1 with
  | .ok a => if p.2 then .error .malformed else .ok a
  | .error e => .error e

end LocalEndpoint.Json
