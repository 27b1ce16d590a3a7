import LocalEndpoint.Unix.Volume.Basic

/-! Making, changing and removing what paths name. A path's last name is taken as it stands: what is
    made or removed there is never what a link at that place leads to. -/

namespace LocalEndpoint.Unix

namespace Volume

/-- A name in a directory, with the node it leads to, if there is one. -/
structure Slot where
  directory : Nat
  name : String
  occupant : Option Nat

/-- The slot that a path names; `none` if the path ends in no name of its own. -/
def slotOf (v : Volume) (path : String) : Except FaultKind (Option Slot) := do
  checkPath path
  let names := namesOf path
  match names.getLast? with
  | none => .ok none
  | some name =>
    match ← v.walk .use maxLinks (startOf home path) names.dropLast with
    | .vacant .. => .error .notFound
    | .node directory =>
      let (_, entries) ← v.lookIn directory
      if name = "." ∨ name = ".." then .ok none
      else if maxName < name.utf8ByteSize then .error .invalidFilename
      else .ok (some ⟨directory, name, entries.lookup name⟩)

/-! ### Entries -/

/-- Whether entries may be made and removed in a directory. -/
def changeable (v : Volume) (directory : Nat) : Bool :=
  (v.node? directory).any fun n => n.writable && n.searchable

/-- Makes a new node under a name. -/
def addEntry (v : Volume) (directory : Nat) (name : String) (n : Node) : Volume :=
  match v.node? directory with
  | some ⟨.directory parent entries, mode⟩ =>
    let w := v.setNode directory ⟨.directory parent ((name, v.fresh) :: entries), mode⟩
    { w.setNode v.fresh n with fresh := v.fresh + 1 }
  | _ => v

/-- Removes a name. -/
def dropEntry (v : Volume) (directory : Nat) (name : String) : Volume :=
  match v.node? directory with
  | some ⟨.directory parent entries, mode⟩ =>
    v.setNode directory ⟨.directory parent (entries.filter (·.1 != name)), mode⟩
  | _ => v

/-- Makes a new node at a path where there is nothing. The node, made for its directory, gets the
    volume's next number. -/
def create (v : Volume) (path : String) (make : Nat → Node) : Except FaultKind Volume := do
  match ← v.slotOf path with
  | none => .error .alreadyExists
  | some slot =>
    let n := make slot.directory
    if slot.occupant.isSome then .error .alreadyExists
    else if path.endsWith "/" && !n.isDirectory then .error .notFound
    else if v.changeable slot.directory then .ok (v.addEntry slot.directory slot.name n)
    else .error .permissionDenied

/-! ### Operations -/

/-- Makes an empty file, or empties the one that a path leads to. -/
def touch (v : Volume) (path : String) : Except FaultKind Volume := do
  match ← v.placeOf .make path with
  | .vacant directory name =>
    if v.changeable directory then .ok (v.addEntry directory name ⟨.file, 0o644⟩)
    else .error .permissionDenied
  | .node id =>
    match v.node? id with
    | none => .error .notFound
    | some n =>
      if n.isDirectory then .error .isADirectory
      else if !n.writable then .error .permissionDenied
      else if n.isSocket then .error .uncategorized
      else .ok v

/-- Makes an empty directory. -/
def makeDirectory (v : Volume) (path : String) : Except FaultKind Volume :=
  v.create path fun parent => ⟨.directory parent [], 0o755⟩

/-- Makes a link. -/
def makeLink (v : Volume) (target path : String) : Except FaultKind Volume :=
  if target.contains '\x00' then .error .invalidInput
  else if path.contains '\x00' then .error .invalidInput
  else if target.isEmpty then .error .notFound
  else if maxPath < target.utf8ByteSize then .error .invalidFilename
  else v.create path fun _ => ⟨.link target, 0o777⟩

/-- Makes a socket's file and tells its number. -/
def makeSocket (v : Volume) (path : String) : Except FaultKind (Nat × Volume) :=
  (v.create path fun _ => ⟨.socket, 0o755⟩).map (v.fresh, ·)

/-- Removes what a path names, unless it is a directory. -/
def remove (v : Volume) (path : String) : Except FaultKind Volume := do
  match ← v.slotOf path with
  | none => .error .isADirectory
  | some slot =>
    match slot.occupant.bind v.node? with
    | none => .error .notFound
    | some n =>
      if path.endsWith "/" then .error (if n.isDirectory then .isADirectory else .notADirectory)
      else if !v.changeable slot.directory then .error .permissionDenied
      else if n.isDirectory then .error .isADirectory
      else .ok (v.dropEntry slot.directory slot.name)

/-- Sets the permission bits of what a path leads to. -/
def chmod (v : Volume) (path : String) (mode : Nat) : Except FaultKind Volume := do
  let (id, n) ← v.resolve .use path
  .ok (v.setNode id { n with mode := mode % 0o10000 })

/-- The permission bits of what a path leads to. -/
def mode? (v : Volume) (path : String) : Option Nat :=
  match v.resolve .use path with
  | .ok (_, n) => some (n.mode % 0o1000)
  | .error _ => none

/-- What a path names; a link at its end is not followed. -/
def kind? (v : Volume) (path : String) : Option NodeKind :=
  match v.resolve .see path with
  | .ok (_, n) => some n.kind
  | .error _ => none

/-- The number of the socket's file that a path leads to, if somebody may write to it. -/
def socketAt (v : Volume) (path : String) : Except FaultKind Nat := do
  let (id, n) ← v.resolve .use path
  if !n.writable then .error .permissionDenied
  else if n.isSocket then .ok id
  else .error .connectionRefused

end Volume

instance : FileSystem Volume where
  isSocket v path := v.kind? path == some .socket
  remove := Volume.remove
  makeSocket := Volume.makeSocket
  socketAt := Volume.socketAt
  chmod := Volume.chmod

end LocalEndpoint.Unix
