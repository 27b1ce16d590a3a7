import LocalEndpoint.Unix.Volume.Entries

/-! The working directory from one user to the next: it is entered before it is used and cleared
    afterwards. What its owner's permission bits protect stays: a directory that cannot be listed,
    and whatever stands in one that cannot be changed. -/

namespace LocalEndpoint.Unix

namespace Volume

/-- Enters the working directory, which its permission bits must allow. -/
def enter (v : Volume) : Except FaultKind Unit := (v.lookIn home).map fun _ => ()

/-- Whether an entry that leads to this node can be removed: anything can, except a directory that
    cannot be listed or is not empty. -/
def removable : Option Node → Bool
  | some n => !n.isDirectory || (n.readable && n.entries.isEmpty)
  | none => true

/-- Removes everything below a directory that can be removed, down to `depth` levels. -/
def sweepBelow : Nat → Nat → Volume → Volume
  | 0, _, v => v
  | depth + 1, directory, v =>
    match v.node? directory with
    | none => v
    | some n =>
      if n.readable && v.changeable directory then
        n.entries.foldl (fun w entry =>
          let w := sweepBelow depth entry.2 w
          if removable (w.node? entry.2) then w.dropEntry directory entry.1 else w) v
      else v

/-- Forgets the nodes that no name leads to. -/
def prune (v : Volume) : Volume :=
  let named := v.nodes.values.flatMap fun n => n.entries.map (·.2)
  { v with
    nodes := v.nodes.keys.foldl
      (fun t id => if id == root || named.contains id then t else t.erase id) v.nodes }

/-- Clears the working directory. -/
def sweep (v : Volume) : Volume := (sweepBelow v.fresh home v).prune

end Volume

end LocalEndpoint.Unix
