/-! Text from bytes that may not be text: what is well-formed is decoded, and each longest piece
    that begins a character without ending it becomes one replacement character. -/

namespace LocalEndpoint.Unix.Utf8

/-- Stands for bytes that are no character. -/
def replacement : Char := '\ufffd'

/-- The ranges in which the bytes after a character's first byte are; `none` if no character begins
    with that byte. -/
def tailRanges (b : UInt8) : Option (List (UInt8 × UInt8)) :=
  if b < 0x80 then some []
  else if b < 0xc2 then none
  else if b < 0xe0 then some [(0x80, 0xbf)]
  else if b = 0xe0 then some [(0xa0, 0xbf), (0x80, 0xbf)]
  else if b = 0xed then some [(0x80, 0x9f), (0x80, 0xbf)]
  else if b < 0xf0 then some [(0x80, 0xbf), (0x80, 0xbf)]
  else if b = 0xf0 then some [(0x90, 0xbf), (0x80, 0xbf), (0x80, 0xbf)]
  else if b < 0xf4 then some [(0x80, 0xbf), (0x80, 0xbf), (0x80, 0xbf)]
  else if b = 0xf4 then some [(0x80, 0x8f), (0x80, 0xbf), (0x80, 0xbf)]
  else none

/-- How many bytes are in the ranges that stand at their places. -/
def fitting : List (UInt8 × UInt8) → List UInt8 → Nat
  | (low, high) :: ranges, b :: bs => if low ≤ b ∧ b ≤ high then fitting ranges bs + 1 else 0
  | _, _ => 0

/-- The character of a first byte and the bytes after it: a first byte with `n` bytes after it gives
    its low bits, each of the others six. -/
def character (b : UInt8) (tail : List UInt8) : Char :=
  let first := if tail.isEmpty then b.toNat else b.toNat % Nat.pow 2 (6 - tail.length)
  Char.ofNat (tail.foldl (fun n c => n * 64 + c.toNat % 64) first)

/-- Decodes bytes. -/
def decode : List UInt8 → List Char
  | [] => []
  | b :: rest =>
    match tailRanges b with
    | none => replacement :: decode rest
    | some ranges =>
      let n := fitting ranges rest
      (if n = ranges.length then character b (rest.take n) else replacement)
        :: decode (rest.drop n)
termination_by bs => bs.length

end LocalEndpoint.Unix.Utf8
