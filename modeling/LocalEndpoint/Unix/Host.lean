import LocalEndpoint.Fifo
import LocalEndpoint.Handle
import LocalEndpoint.Unix.FileSystem
import LocalEndpoint.Unix.Settings
import LocalEndpoint.Unix.Streams
import LocalEndpoint.Unix.Table

/-! Unix sockets on one machine: a file system, the listeners bound to its files, and the streams
    between them and those who connect. A connect finds a listener by the identity of the file that
    its path leads to, while a listener removes its file by path. -/

namespace LocalEndpoint.Unix

/-- One end of a stream in somebody's hands, with its own address. -/
structure Connection where
  id : Nat
  address : Option String
  deriving DecidableEq

instance : Located Connection := ⟨Connection.address⟩

/-- A listener, which takes connections until its owner lets go of it, closed or not. -/
structure Listener where
  path : String
  /-- The identity of its file; `none` for a listener without one. -/
  file : Option Nat
  /-- Whether closing removes the file at its path. -/
  cleanup : Bool
  shut : Bool := false
  /-- Its own note whether it keeps the program alive. -/
  referenced : Bool := true
  /-- The connections that nobody has accepted. -/
  queue : Fifo Connection := .empty

/-- The address of what a listener accepts. -/
def Listener.acceptedAddress (l : Listener) : Option String := l.file.map fun _ => l.path

/-- One machine with a file system `F`. -/
structure Host (F : Type) where
  files : F
  listeners : Table Nat Listener := {}
  streams : Streams := {}
  /-- A number that no listener has had. -/
  fresh : Nat := 0

namespace Host

variable {F : Type}

def listener? (h : Host F) (id : Nat) : Option Listener := h.listeners.get? id

/-- Replaces a listener, or adds it. -/
def setListener (h : Host F) (id : Nat) (l : Listener) : Host F :=
  { h with listeners := h.listeners.put id l }

/-- Adds a listener and tells its number. -/
def addListener (h : Host F) (l : Listener) : Host F × Except FaultKind Nat :=
  ({ h.setListener h.fresh l with fresh := h.fresh + 1 }, .ok h.fresh)

/-- The listener that is bound to a file. -/
def boundTo? (h : Host F) (file : Nat) : Option (Nat × Listener) :=
  h.listeners.rows.find? (·.2.file == some file)

/-! ### Accepting -/

/-- What an accept yields at this moment: nothing as long as it stays pending. -/
def accept? (h : Host F) (id : Nat) : Option (Host F × Except Failure Connection) :=
  match h.listener? id with
  | none => some (h, .error .listenerClosed)
  | some l =>
    if l.shut then some (h, .error .listenerClosed)
    else l.queue.pop?.map fun (c, queue) => (h.setListener id { l with queue }, .ok c)

/-- How many connections wait in a listener's queue. -/
def queued (h : Host F) (id : Nat) : Nat := ((h.listener? id).map (·.queue.size)).getD 0

/-! ### Faults -/

/-- The number and the text of the system errors that sockets and files meet. -/
def systemError : FaultKind → Option (Nat × String)
  | .notFound => some (2, "No such file or directory")
  | .permissionDenied => some (13, "Permission denied")
  | .alreadyExists => some (17, "File exists")
  | .notADirectory => some (20, "Not a directory")
  | .isADirectory => some (21, "Is a directory")
  | .invalidFilename => some (36, "File name too long")
  | .filesystemLoop => some (40, "Too many levels of symbolic links")
  | .addrInUse => some (98, "Address already in use")
  | .connectionRefused => some (111, "Connection refused")
  | _ => none

/-- A fault of some kind with the system's text for it. -/
def faultOf (kind : FaultKind) : Fault :=
  match systemError kind with
  | some (number, text) => ⟨kind, text ++ " (os error " ++ toString number ++ ")"⟩
  | none => ⟨kind, kind.name⟩

/-! ### Listening -/

variable [FileSystem F]

/-- Removes a socket's file that stands at a path, if the settings ask for it. -/
def clearStale (h : Host F) (s : Settings) (path : String) : Except FaultKind F :=
  if s.removeStale && FileSystem.isSocket h.files path then FileSystem.remove h.files path
  else .ok h.files

/-- Makes a listener's file, and the listener bound to it; with the empty path there is no file. -/
def bindListener (h : Host F) (s : Settings) (path : String) : Host F × Except FaultKind Nat :=
  if !isSocketPath path then (h, .error .invalidInput)
  else if path.isEmpty then h.addListener { path, file := none, cleanup := s.cleanupOnClose }
  else
    match FileSystem.makeSocket h.files path with
    | .error .alreadyExists => (h, .error .addrInUse)
    | .error kind => (h, .error kind)
    | .ok (file, files) =>
      { h with files }.addListener { path, file := some file, cleanup := s.cleanupOnClose }

/-- Listens at a path. A stale file stays removed even if that fails. -/
def listen (h : Host F) (s : Settings) (path : String) : Host F × Except FaultKind Nat :=
  match h.clearStale s path with
  | .error kind => (h, .error kind)
  | .ok files => { h with files }.bindListener s path

/-- Removes the file at a path, if that can be done. -/
def tryRemove (h : Host F) (path : String) : Host F :=
  match FileSystem.remove h.files path with
  | .ok files => { h with files }
  | .error _ => h

/-- Closes a listener, once: nobody accepts from it any more, and the file at its path is removed if
    its settings ask for it. -/
def close (h : Host F) (id : Nat) : Host F × Option Failure :=
  match h.listener? id with
  | none => (h, some .listenerClosed)
  | some l =>
    if l.shut then (h, some .listenerClosed)
    else
      let h := h.setListener id { l with shut := true }
      (if l.cleanup then h.tryRemove l.path else h, none)

/-- Lets go of a listener: it is closed, if it was not, and its queue is lost. -/
def dropListener (h : Host F) (id : Nat) : Host F :=
  let h := (h.close id).1
  let waiting : List Connection := ((h.listener? id).map (·.queue.toList)).getD []
  { h with
    listeners := h.listeners.erase id
    streams := waiting.foldl (fun s c => s.letGo c.id true) h.streams }

/-! ### Connecting -/

/-- Connects to a path: the other end waits in the queue of the listener bound to the file there. -/
def connect (h : Host F) (path : String) : Except FaultKind (Host F × Connection) :=
  if !isSocketPath path || path.isEmpty then .error .invalidInput
  else
    match FileSystem.socketAt h.files path with
    | .error kind => .error kind
    | .ok file =>
      match h.boundTo? file with
      | none => .error .connectionRefused
      | some (id, l) =>
        let (asking, answering, streams) := h.streams.connect l.acceptedAddress.isSome
        let h := h.setListener id
          { l with queue := l.queue.push ⟨answering, l.acceptedAddress⟩ }
        .ok ({ h with streams }, ⟨asking, none⟩)

/-! ### Keeping what is held -/

/-- Lets go of the listeners, and then of the ends of streams, that nobody holds; what waits in a
    queue is held by it. -/
def keep (h : Host F) (heldListeners heldEnds : List Nat) : Host F :=
  let h := h.listeners.keys.foldl
    (fun h id => if heldListeners.contains id then h else h.dropListener id) h
  let waiting := h.listeners.values.flatMap fun l => l.queue.toList.map (·.id)
  let held := heldEnds ++ waiting
  { h with
    streams := h.streams.ends.keys.foldl
      (fun s id => if held.contains id then s else s.letGo id false) h.streams }

end Host

end LocalEndpoint.Unix
