import LocalEndpoint.Unix.FileSystem
import LocalEndpoint.Unix.Table

/-! The plainest file system: what stands at each path, without directories, links or permissions.
    What holds of sockets whatever else a file system does can be seen over it; `entry?_makeSocket`
    and `entry?_remove` say what sockets do to it. -/

namespace LocalEndpoint.Unix

/-- What stands at a path: which file it is, and whether it is a socket's. -/
structure Entry where
  identity : Nat
  socket : Bool
  deriving DecidableEq

/-- Entries by path. -/
structure PathMap where
  entries : Table String Entry := {}
  /-- The identity that the next entry gets. -/
  fresh : Nat := 0
  /-- What whoever makes a socket is told, even where there is no entry. -/
  refusal : Option FaultKind := none

namespace PathMap

def entry? (m : PathMap) (path : String) : Option Entry := m.entries.get? path

/-- Removes the entry at a path. -/
def remove (m : PathMap) (path : String) : Except FaultKind PathMap :=
  match m.entry? path with
  | none => .error .notFound
  | some _ => .ok { m with entries := m.entries.erase path }

/-- Makes a socket's file at a path where there is no entry, unless that is refused. -/
def makeSocket (m : PathMap) (path : String) : Except FaultKind (Nat × PathMap) :=
  match m.entry? path, m.refusal with
  | some _, _ => .error .alreadyExists
  | none, some kind => .error kind
  | none, none =>
    .ok (m.fresh, { m with
      entries := m.entries.put path ⟨m.fresh, true⟩
      fresh := m.fresh + 1 })

/-- The identity of the socket's file at a path. -/
def socketAt (m : PathMap) (path : String) : Except FaultKind Nat :=
  match m.entry? path with
  | none => .error .notFound
  | some e => if e.socket then .ok e.identity else .error .connectionRefused

instance : FileSystem PathMap where
  isSocket m path := (m.entry? path).any (·.socket)
  remove := remove
  makeSocket := makeSocket
  socketAt := socketAt
  chmod m path _ := if (m.entry? path).isSome then .ok m else .error .notFound

theorem entry?_remove {m n : PathMap} {path : String} (h : m.remove path = .ok n) (q : String) :
    n.entry? q = if q == path then none else m.entry? q := by
  unfold remove at h
  split at h
  · cases h
  · cases h; exact Table.get?_erase m.entries path q

theorem fresh_remove {m n : PathMap} {path : String} (h : m.remove path = .ok n) :
    n.fresh = m.fresh ∧ n.refusal = m.refusal := by
  unfold remove at h
  split at h
  · cases h
  · cases h; exact ⟨rfl, rfl⟩

theorem remove_of_entry? {m : PathMap} {path : String} (h : (m.entry? path).isSome) :
    ∃ n, m.remove path = .ok n := by
  obtain ⟨e, he⟩ := Option.isSome_iff_exists.mp h
  exact ⟨_, by rw [remove, he]⟩

theorem entry?_makeSocket {m n : PathMap} {path : String} {file : Nat}
    (h : m.makeSocket path = .ok (file, n)) (q : String) :
    n.entry? q = if q == path then some ⟨file, true⟩ else m.entry? q := by
  unfold makeSocket at h
  split at h
  · cases h
  · cases h
  · cases h; exact Table.get?_put m.entries path q ⟨m.fresh, true⟩

theorem fresh_makeSocket {m n : PathMap} {path : String} {file : Nat}
    (h : m.makeSocket path = .ok (file, n)) : file = m.fresh ∧ n.fresh = m.fresh + 1 := by
  unfold makeSocket at h
  split at h
  · cases h
  · cases h
  · cases h; exact ⟨rfl, rfl⟩

/-- A socket's file can be made exactly where there is no entry and nothing is refused. -/
theorem makeSocket_isOk (m : PathMap) (path : String) :
    (∃ file n, m.makeSocket path = .ok (file, n)) ↔
      m.refusal.isSome = false ∧ (m.entry? path).isSome = false := by
  unfold makeSocket
  split
  · next e he => simp [he]
  · next kind he hr => simp [hr]
  · next he hr => simp [he, hr]

end PathMap

end LocalEndpoint.Unix
