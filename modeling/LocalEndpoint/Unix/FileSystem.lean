import LocalEndpoint.Failure

/-! What sockets ask of a file system, and the one fact of their own: which texts are socket paths.
    Everything about sockets is stated over any file system that answers these questions. -/

namespace LocalEndpoint.Unix

/-- A file system as sockets see it. Files have identities: a file that is removed and made again is
    another one. -/
class FileSystem (F : Type) where
  /-- Whether there is a socket's file at a path; a link there is not followed. -/
  isSocket : F → String → Bool
  /-- Removes the file at a path. -/
  remove : F → String → Except FaultKind F
  /-- Makes a socket's file at a path where there is nothing, and tells its identity. -/
  makeSocket : F → String → Except FaultKind (Nat × F)
  /-- The identity of the socket's file that a path leads to, for somebody who wants to connect. -/
  socketAt : F → String → Except FaultKind Nat
  /-- Sets the permission bits of what a path leads to. -/
  chmod : F → String → Nat → Except FaultKind F

/-- The longest path of a socket, in bytes. -/
def maxSocketPath : Nat := 107

/-- Whether a text can be the path of a socket. The empty one can: it asks for a socket without a
    file. -/
def isSocketPath (path : String) : Bool :=
  !path.contains '\x00' && decide (path.utf8ByteSize ≤ maxSocketPath)

end LocalEndpoint.Unix
