import LocalEndpoint.Failure
import LocalEndpoint.Unix.Table

/-! Streams of bytes between two ends. What is written at one end is read at the other, in order;
    an end that is let go leaves its peer with what it has received, and then with nothing. -/

namespace LocalEndpoint.Unix

/-- One end of a stream. -/
structure StreamEnd where
  /-- The number of the other end. -/
  peer : Nat
  /-- Whether the other end has a path for a name. -/
  peerNamed : Bool
  /-- What has arrived and not been read. -/
  inbox : List UInt8 := []
  /-- Whether the other end was let go with unread bytes; told once. -/
  reset : Bool := false

/-- The ends that somebody holds, by number. -/
structure Streams where
  ends : Table Nat StreamEnd := {}
  fresh : Nat := 0

/-- What one attempt to read gives. -/
inductive Reading where
  | bytes (bs : List UInt8)
  /-- Not enough bytes yet. -/
  | pending
  | failed (kind : FaultKind)

namespace Streams

def end? (s : Streams) (id : Nat) : Option StreamEnd := s.ends.get? id

/-- Replaces an end, or adds it. -/
def setEnd (s : Streams) (id : Nat) (e : StreamEnd) : Streams :=
  { s with ends := s.ends.put id e }

/-- A new stream: its asking end, then its answering end; `named` tells whether the answering one
    has a path. -/
def connect (s : Streams) (named : Bool) : Nat × Nat × Streams :=
  let asking := s.fresh
  let answering := s.fresh + 1
  (asking, answering,
    { ends := (s.ends.put answering { peer := asking, peerNamed := false }).put asking
        { peer := answering, peerNamed := named }
      fresh := s.fresh + 2 })

/-- Writes bytes, for the peer to read. -/
def write (s : Streams) (id : Nat) (bs : List UInt8) : Except FaultKind Streams :=
  match s.end? id with
  | none => .error .notConnected
  | some e =>
    match s.end? e.peer with
    | none => if bs.isEmpty then .ok s else .error .brokenPipe
    | some peer => .ok (s.setEnd e.peer { peer with inbox := peer.inbox ++ bs })

/-- Reads exactly `n` bytes. -/
def read (s : Streams) (id n : Nat) : Reading × Streams :=
  match s.end? id with
  | none => (.failed .notConnected, s)
  | some e =>
    if n ≤ e.inbox.length then
      (.bytes (e.inbox.take n), s.setEnd id { e with inbox := e.inbox.drop n })
    else if (s.end? e.peer).isSome then (.pending, s)
    else
      (.failed (if e.reset then .connectionReset else .unexpectedEof),
        s.setEnd id { e with inbox := [], reset := false })

/-- Lets go of an end. The peer learns of it: by a reset if bytes are left unread, or if the end was
    never in anybody's hands. -/
def letGo (s : Streams) (id : Nat) (untouched : Bool) : Streams :=
  match s.end? id with
  | none => s
  | some e =>
    let s := { s with ends := s.ends.erase id }
    match s.end? e.peer with
    | some peer =>
      if untouched || !e.inbox.isEmpty then s.setEnd e.peer { peer with reset := true } else s
    | none => s

end Streams

end LocalEndpoint.Unix
