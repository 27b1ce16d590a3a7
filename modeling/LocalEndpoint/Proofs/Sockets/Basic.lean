import LocalEndpoint.Proofs.Runs
import LocalEndpoint.Unix.Host
import LocalEndpoint.Unix.PathMap

/-! What is done with the sockets of a host, over the plainest file system. A deed is one thing that
    somebody does, by whichever provider and on whichever listener; a list of deeds is a run. Runs
    are seen through `stands?`, what stands at a path, and `bare?`, what a listener is apart from
    the connections that wait in its queue; what a deed does to both is an `Effect`. -/

namespace LocalEndpoint.Unix

/-- One thing that somebody does with sockets. -/
inductive Deed where
  | listen (settings : Settings) (path : String)
  /-- From now on the system refuses to make sockets, or no longer does. -/
  | refuse (refusal : Option FaultKind)
  | connect (path : String)
  | accept (id : Nat)
  | close (id : Nat)
  | drop (id : Nat)

/-- A listener apart from what waits in its queue. -/
def Listener.bare (l : Listener) : Listener := { l with queue := .empty }

/-- The path that closing a listener clears. -/
def Listener.clears? (l : Listener) : Option String :=
  if l.cleanup && !l.shut then some l.path else none

namespace Deed

/-- The listener that a deed is done with. -/
def target? : Deed → Option Nat
  | .accept id | .close id | .drop id => some id
  | _ => none

/-- Whether a deed closes the listener of this number, or lets go of it. -/
def ends (id : Nat) : Deed → Bool
  | .close i | .drop i => i == id
  | _ => false

/-- What a deed leaves of the listener of this number. -/
def leaves (id : Nat) (l : Listener) : Deed → Option Listener
  | .close i => some (if i = id then { l with shut := true } else l)
  | .drop i => if i = id then none else some l
  | _ => some l

/-- Whatever is left of a listener differs in being shut at most. -/
theorem eq_of_leaves {d : Deed} {id : Nat} {l m : Listener} (h : d.leaves id m = some l) :
    l = { m with shut := m.shut || d.ends id } := by
  cases d with
  | close i =>
    cases h
    by_cases hi : i = id
    · simp [ends, hi]
    · simp [ends, hi, beq_false_of_ne hi]
  | drop i =>
    by_cases hi : i = id
    · simp [leaves, hi] at h
    · simp only [leaves, hi, ↓reduceIte, Option.some.injEq] at h
      simp [ends, beq_false_of_ne hi, h]
  | _ => cases h; simp [ends]

end Deed

namespace Host

/-- A host without listeners. -/
def start (files : PathMap) : Host PathMap := { files }

/-- What stands at a path. -/
def stands? (h : Host PathMap) (path : String) : Option Entry := h.files.entry? path

/-- The listener of some number, apart from its queue. -/
def bare? {F : Type} (h : Host F) (id : Nat) : Option Listener := (h.listener? id).map .bare

/-- Whether nobody can accept from a listener any more: it is closed, or gone. -/
def isShut {F : Type} (h : Host F) (id : Nat) : Bool := (h.bare? id).all (·.shut)

/-- A listener is open at a path, with a file of its own. -/
def OpenAt (h : Host PathMap) (id : Nat) (path : String) (file : Nat) : Prop :=
  ∃ l, h.listener? id = some l ∧ l.shut = false ∧ l.path = path ∧ l.file = some file

/-! ### Runs -/

/-- The host after one deed. -/
def next (h : Host PathMap) : Deed → Host PathMap
  | .listen s path => (h.listen s path).1
  | .refuse refusal => { h with files := { h.files with refusal } }
  | .connect path =>
    match h.connect path with
    | .ok (g, _) => g
    | .error _ => h
  | .accept id =>
    match h.accept? id with
    | some (g, _) => g
    | none => h
  | .close id => (h.close id).1
  | .drop id => h.dropListener id

/-- The host after a run. -/
def after (h : Host PathMap) (ds : List Deed) : Host PathMap := ds.foldl next h

instance : Runs after next := ⟨fun _ _ => rfl⟩

/-! ### What a deed does -/

/-- The path that a deed clears, if anything stands there. -/
def clears? (h : Host PathMap) : Deed → Option String
  | .listen s path =>
    if s.removeStale && FileSystem.isSocket h.files path then some path else none
  | .close id | .drop id => (h.bare? id).bind Listener.clears?
  | _ => none

/-- What stands at a path once a deed has cleared the one it clears. -/
def spared? (h : Host PathMap) (d : Deed) (path : String) : Option Entry :=
  if h.clears? d = some path then none else h.stands? path

/-- The listener that a deed opens. -/
def opens? (h : Host PathMap) : Deed → Option Listener
  | .listen s path =>
    if !isSocketPath path then none
    else if path.isEmpty then some { path, file := none, cleanup := s.cleanupOnClose }
    else if h.files.refusal.isSome || (h.spared? (.listen s path) path).isSome then none
    else some { path, file := some h.files.fresh, cleanup := s.cleanupOnClose }
  | _ => none

/-- The path at which a deed makes a socket's file. -/
def makes? (h : Host PathMap) (d : Deed) : Option String :=
  (h.opens? d).bind fun l => l.file.map fun _ => l.path

/-- What a deed does to the files. -/
structure Filed (h : Host PathMap) (d : Deed) (files : PathMap) : Prop where
  entry : ∀ q, files.entry? q =
    if h.makes? d = some q then some ⟨h.files.fresh, true⟩ else h.spared? d q
  fresh : files.fresh = if (h.makes? d).isSome then h.files.fresh + 1 else h.files.fresh

/-- What a deed does to a host. -/
structure Effect (h : Host PathMap) (d : Deed) (g : Host PathMap) : Prop extends
    Filed h d g.files where
  bare : ∀ id, g.bare? id =
    if id = h.fresh ∧ (h.opens? d).isSome then h.opens? d
    else (h.bare? id).bind fun l => d.leaves id l
  fresh' : g.fresh = if (h.opens? d).isSome then h.fresh + 1 else h.fresh
  keys : g.listeners.keys.Nodup

end Host

end LocalEndpoint.Unix
