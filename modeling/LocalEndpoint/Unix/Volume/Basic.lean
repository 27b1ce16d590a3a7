import LocalEndpoint.Unix.FileSystem
import LocalEndpoint.Unix.Table

/-! A file system seen by one user who owns everything in it and is bound by the owner's permission
    bits. Names lead from directories to nodes; a node's number is its identity. A path is walked
    name by name, through a bounded number of links, so every walk ends. -/

namespace LocalEndpoint.Unix

/-- What a node is. -/
inductive NodeKind where
  | file
  | directory (parent : Nat) (entries : List (String × Nat))
  | socket
  | link (target : String)
  deriving DecidableEq

/-- A node with its permission bits. -/
structure Node where
  kind : NodeKind
  mode : Nat
  deriving DecidableEq

namespace Node

/-- May the owner read a file, or list a directory? -/
def readable (n : Node) : Bool := n.mode.testBit 8

/-- May the owner write a file, or change a directory's entries? -/
def writable (n : Node) : Bool := n.mode.testBit 7

/-- May the owner look names up in a directory? -/
def searchable (n : Node) : Bool := n.mode.testBit 6

def isSocket (n : Node) : Bool := n.kind == .socket

def isDirectory (n : Node) : Bool :=
  match n.kind with
  | .directory .. => true
  | _ => false

/-- What a link leads to. -/
def target? (n : Node) : Option String :=
  match n.kind with
  | .link target => some target
  | _ => none

/-- The names in a directory. -/
def entries (n : Node) : List (String × Nat) :=
  match n.kind with
  | .directory _ entries => entries
  | _ => []

end Node

/-- Nodes by number, and the first number that no node has had. -/
structure Volume where
  nodes : Table Nat Node
  fresh : Nat

namespace Volume

/-- The number of the root directory. -/
def root : Nat := 0

/-- The number of the working directory. -/
def home : Nat := 1

/-- An empty working directory below the root. -/
def empty : Volume where
  nodes :=
    (({} : Table Nat Node).put root ⟨.directory root [("home", home)], 0o755⟩).put home
      ⟨.directory root [], 0o755⟩
  fresh := 2

def node? (v : Volume) (id : Nat) : Option Node := v.nodes.get? id

/-- Replaces a node, or adds it. -/
def setNode (v : Volume) (id : Nat) (n : Node) : Volume := { v with nodes := v.nodes.put id n }

/-! ### Paths -/

/-- The longest name of an entry, in bytes. -/
def maxName : Nat := 255

/-- The longest path, in bytes. -/
def maxPath : Nat := 4095

/-- How many links a path may lead through. -/
def maxLinks : Nat := 40

/-- The names of a path. -/
def namesOf (path : String) : List String :=
  (path.splitToList (· == '/')).filter (!·.isEmpty)

/-- The steps of a walk along a path: its names, and an empty one at the end of a path that ends in
    a slash, which must lead to a directory. -/
def stepsOf (path : String) : List String :=
  if path.endsWith "/" then namesOf path ++ [""] else namesOf path

/-- Where a path starts, for somebody who is in directory `here`. -/
def startOf (here : Nat) (path : String) : Nat := if path.startsWith "/" then root else here

/-- The faults that a path has by itself. -/
def checkPath (path : String) : Except FaultKind Unit :=
  if path.contains '\x00' then .error .invalidInput
  else if path.isEmpty then .error .notFound
  else if maxPath < path.utf8ByteSize then .error .invalidFilename
  else .ok ()

/-! ### Walking -/

/-- What a walk is for, which decides what it makes of the path's end. -/
inductive Purpose where
  /-- To see what stands there: a link is not followed. -/
  | see
  /-- To use what is there: a link is followed. -/
  | use
  /-- To open a file, or make it: a link is followed, and a slash at the end asks for a directory,
      which is no file. -/
  | make
  deriving DecidableEq

/-- Where a walk ends. -/
inductive Place where
  /-- At a node. -/
  | node (id : Nat)
  /-- At a name that a directory does not have. -/
  | vacant (directory : Nat) (name : String)

/-- The parent and the entries of a directory, if names may be looked up in it. -/
def lookIn (v : Volume) (id : Nat) : Except FaultKind (Nat × List (String × Nat)) :=
  match v.node? id with
  | none => .error .notFound
  | some n =>
    match n.kind with
    | .directory parent entries =>
      if n.searchable then .ok (parent, entries) else .error .permissionDenied
    | _ => .error .notADirectory

/-- Walks from node `here` along steps, through at most `links` links. -/
def walk (v : Volume) (purpose : Purpose) (links here : Nat) :
    List String → Except FaultKind Place
  | [] => .ok (.node here)
  | "" :: rest =>
    if (v.node? here).any Node.isDirectory then walk v purpose links here rest
    else .error .notADirectory
  | name :: rest =>
    match v.lookIn here with
    | .error e => .error e
    | .ok (parent, entries) =>
      if purpose = .make ∧ rest = [""] then .error .isADirectory
      else if name = "." then walk v purpose links here rest
      else if name = ".." then walk v purpose links parent rest
      else if maxName < name.utf8ByteSize then .error .invalidFilename
      else
        match entries.lookup name with
        | none => if rest.isEmpty then .ok (.vacant here name) else .error .notFound
        | some id =>
          match (v.node? id).bind Node.target? with
          | none => walk v purpose links id rest
          | some target =>
            if rest.isEmpty && purpose = .see then .ok (.node id)
            else
              match links with
              | 0 => .error .filesystemLoop
              | links + 1 => walk v purpose links (startOf here target) (stepsOf target ++ rest)
termination_by steps => (links, steps.length)

/-- The place that a path leads to. -/
def placeOf (v : Volume) (purpose : Purpose) (path : String) : Except FaultKind Place := do
  checkPath path
  v.walk purpose maxLinks (startOf home path) (stepsOf path)

/-- The node that a path leads to. -/
def resolve (v : Volume) (purpose : Purpose) (path : String) : Except FaultKind (Nat × Node) := do
  match ← v.placeOf purpose path with
  | .vacant .. => .error .notFound
  | .node id =>
    match v.node? id with
    | some n => .ok (id, n)
    | none => .error .notFound

end Volume

end LocalEndpoint.Unix
