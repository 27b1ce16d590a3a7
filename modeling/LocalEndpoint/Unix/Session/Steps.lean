import LocalEndpoint.Unix.Session.Basic
import LocalEndpoint.Unix.Volume.Entries

/-! The steps of a session. Those that need only sockets work over any file system; `perform` does
    one step over a volume, lets everything settle, and answers. -/

namespace LocalEndpoint.Unix

/-- A step that uses the file system alone. -/
inductive FileStep where
  | touch (path : String)
  | makeDirectory (path : String)
  | remove (path : String)
  | makeLink (target path : String)
  | kind (path : String)
  | mode (path : String)

/-- A step that uses the user's own provider and what it made; results go under a name. -/
inductive SocketStep where
  /-- Leaves a socket's file to which no listener is bound. -/
  | leaveStale (path : String)
  | chmod (path : String) (mode : Nat)
  | settings
  | listen (path listener : String)
  | connect (path connection : String)
  | accept (listener connection : String)
  | beginAccept (listener : String)
  | endAccept (listener connection : String)
  | closeListener (listener : String)
  | dropListener (listener : String)
  | ref (listener : String)
  | unref (listener : String)
  | hasRef (listener : String)
  | localAddress (listener : String)
  | peerNamed (connection : String)
  | write (connection : String) (bytes : List UInt8)
  | read (connection : String) (count : Nat)
  | dropConnection (connection : String)

/-- What is done with a named endpoint. -/
inductive EndpointStep where
  | bind (address : String)
  | listen (backlog : Size)
  | connect (path : String)
  | incoming
  /-- Hands over the attached connection, to be kept under a name or let go. -/
  | take (connection : Option String)
  | fchmod (bits : UInt32)
  | ref
  | unref
  | release
  | inspect
  | close

/-- One step of a session. -/
inductive Step where
  | files (step : FileStep)
  | sockets (step : SocketStep)
  /-- A new endpoint with a provider of its own. -/
  | create (name : String) (role : Role) (ipc : Option Bool) (settings : Settings)
  | endpoint (name : String) (step : EndpointStep)
  /-- Receives from the receiver of an endpoint; a connection is kept under a name or let go. -/
  | receive (name : String) (connection : Option String)
  /-- Lets go of an endpoint. -/
  | drop (name : String)

/-- What a name may be missing for. -/
inductive Absent where
  | listener | connection | endpoint | incoming | accept

/-- What a step answers. -/
inductive Answer where
  | nothing
  | done
  | flag (b : Bool)
  | failed (f : Failure)
  | absent (a : Absent)
  | kind (k : Option NodeKind)
  | mode (m : Option Nat)
  | settings (s : Settings)
  | listening (address path : String)
  | connection (c : Connection)
  | address (a : String)
  | bytes (bs : List UInt8)
  | pending
  | code (c : Code)
  | codes (cs : List Code)
  | listen (result : Except EndpointError Code)
  | event (e : Event Connection)
  | ended
  | handle (h : Option (Handle Connection))
  /-- An endpoint as its user sees it, and whether it keeps the program alive. -/
  | endpoint (e : Endpoint Connection) (hasRef : Bool)

/-- A fault of the system as an answer. -/
def Answer.ofKind (kind : FaultKind) : Answer := .failed (.io (Host.faultOf kind))

namespace Session

variable {F : Type}

/-! ### Connections -/

/-- Keeps a connection under a name, if there is one. -/
def store (s : Session F) (name : Option String) (c : Connection) : Session F :=
  match name with
  | some n => { s with connections := s.connections.put n c }
  | none => s

/-- Answers the outcome of an accept and keeps its connection. -/
def storeAccepted (s : Session F) (name : String) (outcome : Except Failure Connection) :
    Session F × Answer :=
  match outcome with
  | .ok c => (s.store (some name) c, .connection c)
  | .error f => (s, .failed f)

def write (s : Session F) (c : Connection) (bytes : List UInt8) : Session F × Answer :=
  match s.host.streams.write c.id bytes with
  | .ok streams => ({ s with host := { s.host with streams } }, .done)
  | .error kind => (s, Answer.ofKind kind)

def read (s : Session F) (c : Connection) (count : Nat) : Session F × Answer :=
  let (reading, streams) := s.host.streams.read c.id count
  ({ s with host := { s.host with streams } },
    match reading with
    | .bytes bs => .bytes bs
    | .pending => .pending
    | .failed kind => Answer.ofKind kind)

/-! ### Sockets -/

variable [FileSystem F]

def listen (s : Session F) (path name : String) : Session F × Answer :=
  match s.host.listen s.settings path with
  | (host, .error kind) => ({ s with host }, Answer.ofKind kind)
  | (host, .ok id) =>
    ({ s with host, listeners := s.listeners.put name id }, .listening path path)

def connect (s : Session F) (path name : String) : Session F × Answer :=
  match s.host.connect path with
  | .error kind => (s, Answer.ofKind kind)
  | .ok (host, c) => ({ s with host }.store (some name) c, .connection c)

/-- Listens without any settings that touch files, and lets go at once. -/
def leaveStale (s : Session F) (path : String) : Session F × Answer :=
  match s.host.listen ⟨false, false⟩ path with
  | (host, .error kind) => ({ s with host }, Answer.ofKind kind)
  | (host, .ok id) => ({ s with host := host.dropListener id }, .done)

def closeListener (s : Session F) (id : Nat) : Session F × Answer :=
  let (host, answer) := s.host.close id
  ({ s with host }, answer.elim .done .failed)

/-- Does something with the listener of some name. -/
def onListener (s : Session F) (name : String)
    (f : Nat → Listener → Session F × Answer) : Session F × Answer :=
  match s.listeners.get? name with
  | none => (s, .absent .listener)
  | some id =>
    match s.host.listener? id with
    | none => (s, .absent .listener)
    | some l => f id l

/-- Does something with the connection of some name. -/
def onConnection (s : Session F) (name : String) (f : Connection → Session F × Answer) :
    Session F × Answer :=
  match s.connections.get? name with
  | none => (s, .absent .connection)
  | some c => f c

/-- Notes whether a listener keeps the program alive. -/
def setRef (s : Session F) (id : Nat) (l : Listener) (b : Bool) : Session F :=
  { s with host := s.host.setListener id { l with referenced := b } }

/-- Waits for the end of a pending accept, if there is one that can end. -/
def endAccept (s : Session F) (listener connection : String) : Session F × Answer :=
  match s.accepts.get? listener with
  | none => (s, .absent .accept)
  | some p =>
    match p.outcome with
    | none => (s, .pending)
    | some outcome =>
      { s with accepts := s.accepts.erase listener }.storeAccepted connection outcome

/-- Does a step with sockets. -/
def actOnSockets (s : Session F) : SocketStep → Session F × Answer
  | .leaveStale path => s.leaveStale path
  | .chmod path mode =>
    match FileSystem.chmod s.host.files path mode with
    | .ok files => ({ s with host := { s.host with files } }, .done)
    | .error kind => (s, Answer.ofKind kind)
  | .settings => (s, .settings s.settings)
  | .listen path name => s.listen path name
  | .connect path name => s.connect path name
  | .accept listener name =>
    s.onListener listener fun id _ =>
      match s.host.accept? id with
      | none => (s, .pending)
      | some (host, outcome) => { s with host }.storeAccepted name outcome
  | .beginAccept listener =>
    s.onListener listener fun id _ =>
      ({ s with accepts := s.accepts.put listener ⟨id, none⟩ }, .nothing)
  | .endAccept listener name => s.endAccept listener name
  | .closeListener name => s.onListener name fun id _ => s.closeListener id
  | .dropListener name =>
    ({ s with listeners := s.listeners.erase name }, .flag (s.listeners.has name))
  | .ref name => s.onListener name fun id l => (s.setRef id l true, .nothing)
  | .unref name => s.onListener name fun id l => (s.setRef id l false, .nothing)
  | .hasRef name => s.onListener name fun _ l => (s, .flag l.referenced)
  | .localAddress name => s.onListener name fun _ l => (s, .address l.path)
  | .peerNamed name =>
    s.onConnection name fun c => (s, .flag ((s.host.streams.end? c.id).any (·.peerNamed)))
  | .write name bytes => s.onConnection name fun c => s.write c bytes
  | .read name count => s.onConnection name fun c => s.read c count
  | .dropConnection name =>
    ({ s with connections := s.connections.erase name }, .flag (s.connections.has name))

/-! ### Endpoints -/

/-- Lets go of the receiver of some name. -/
def dropReceiver (s : Session F) (name : String) : Session F :=
  match s.receivers.get? name with
  | none => s
  | some id =>
    let s := { s with receivers := s.receivers.erase name }
    match s.tenant? id with
    | some t => s.setTenant id { t with core := t.core.dropReceiver }
    | none => s

/-- Closes an endpoint. -/
def closeTenant (s : Session F) (id : Nat) (t : Tenant) : Session F :=
  let (host, t) := t.close s.host
  { s with host }.setTenant id t

/-- Lets go of the endpoint of some name, which closes it. -/
def dropEndpoint (s : Session F) (name : String) : Session F :=
  match s.named? name with
  | none => s
  | some (id, t) => { s.closeTenant id t with endpoints := s.endpoints.erase name }

/-- Makes an endpoint; one that had its name is let go. -/
def createEndpoint (s : Session F) (name : String) (role : Role) (ipc : Option Bool)
    (settings : Settings) : Session F :=
  let t : Tenant := { core := .create role (ipc.getD role.isIpc) {}, settings }
  let s := s.dropEndpoint name
  { s.setTenant s.fresh t with
    endpoints := s.endpoints.put name s.fresh
    fresh := s.fresh + 1 }

/-- Notes for an endpoint's listener whether it keeps the program alive, and answers whether the
    endpoint does. -/
def setEndpointRef (s : Session F) (t : Tenant) (b : Bool) : Session F × Answer :=
  let s : Session F :=
    match if t.core.holdsListener then t.listener else none with
    | some id => ((s.host.listener? id).map (s.setRef id · b)).getD s
    | none => s
  (s, .flag (t.hasRef s.host))

/-- Does a step with the endpoint of some number. -/
def actOnEndpoint (s : Session F) (name : String) (id : Nat) (t : Tenant) :
    EndpointStep → Session F × Answer
  | .bind address =>
    let (core, code) := t.core.bind address
    (s.setTenant id { t with core }, .code code)
  | .listen backlog =>
    let (host, t, result) := t.listen s.host backlog
    ({ s with host }.setTenant id t, .listen result)
  | .connect path =>
    let (host, t, os) := t.connect s.host path
    ({ s with host }.setTenant id t,
      .codes (os.filterMap fun | .reported _ code => some code | _ => none))
  | .incoming =>
    let (core, b) := t.core.takeReceiver
    if b then
      let s := s.dropReceiver name
      ({ s with receivers := s.receivers.put name id }.setTenant id { t with core }, .flag true)
    else (s, .flag false)
  | .take connection =>
    let (core, h) := t.core.takeConnection
    let s := s.setTenant id { t with core }
    ((h.map fun h => s.store connection h.connection).getD s, .handle h)
  | .fchmod bits =>
    let (host, code) := t.fchmod s.host bits
    ({ s with host }, .code code)
  | .ref => s.setEndpointRef t true
  | .unref => s.setEndpointRef t false
  | .release => (s.setTenant id { t with core := t.core.release }, .nothing)
  | .inspect => (s, .endpoint t.core (t.hasRef s.host))
  | .close => (s.closeTenant id t, .nothing)

/-- Receives from the receiver of some name. -/
def receive (s : Session F) (name : String) (connection : Option String) : Session F × Answer :=
  match (s.receivers.get? name).bind fun id => (s.tenant? id).map (id, ·) with
  | none => (s, .absent .incoming)
  | some (id, t) =>
    match t.core.receive with
    | (.item event, core) =>
      let s := s.setTenant id { t with core }
      ((event.handle.map fun h => s.store connection h.connection).getD s, .event event)
    | (.pending, _) => (s, .pending)
    | (.ended, _) => (s, .ended)

/-! ### One step -/

/-- Does a step with the file system. -/
def actOnFiles (s : Session Volume) (step : FileStep) : Session Volume × Answer :=
  let files := s.host.files
  let change (result : Except FaultKind Volume) : Session Volume × Answer :=
    match result with
    | .ok files => ({ s with host := { s.host with files } }, .done)
    | .error kind => (s, Answer.ofKind kind)
  match step with
  | .touch path => change (files.touch path)
  | .makeDirectory path => change (files.makeDirectory path)
  | .remove path => change (files.remove path)
  | .makeLink target path => change (files.makeLink target path)
  | .kind path => (s, .kind (files.kind? path))
  | .mode path => (s, .mode (files.mode? path))

/-- Does a step, without what settles after it. -/
def act (s : Session Volume) : Step → Session Volume × Answer
  | .files step => s.actOnFiles step
  | .sockets step => s.actOnSockets step
  | .create name role ipc settings => (s.createEndpoint name role ipc settings, .nothing)
  | .endpoint name step =>
    match s.named? name with
    | none => (s, .absent .endpoint)
    | some (id, t) => s.actOnEndpoint name id t step
  | .receive name connection => s.receive name connection
  | .drop name => (s.dropEndpoint name, .flag (s.named? name).isSome)

/-- Does a step, lets everything settle, and answers. -/
def perform (s : Session Volume) (step : Step) : Session Volume × Answer :=
  let (s, answer) := s.act step
  (s.settle, answer)

end Session

end LocalEndpoint.Unix
