/-! What an endpoint is for, where it stands in its life, and what its socket lets others do. -/

namespace LocalEndpoint

/-- The part an endpoint or a connection plays. -/
inductive Role where
  /-- A duplex stream socket. -/
  | socket
  /-- A listening endpoint. -/
  | server
  /-- A duplex socket that also carries control messages. -/
  | ipc
  deriving DecidableEq

namespace Role

def all : List Role := [.socket, .server, .ipc]

def name : Role → String
  | .socket => "socket"
  | .server => "server"
  | .ipc => "ipc"

/-- Whether control messages travel beside the stream. -/
def isIpc : Role → Bool
  | .ipc => true
  | _ => false

/-- The role of a connection accepted by an endpoint with this control-message flag. -/
def accepted (ipc : Bool) : Role := if ipc then .ipc else .socket

end Role

/-- Where an endpoint stands. -/
inductive Lifecycle where
  /-- No address recorded. -/
  | idle
  /-- An address is recorded, or a connection has been made. -/
  | bound
  /-- The listener is open. -/
  | listening
  /-- The accept loop awaits a connection. -/
  | accepting
  /-- The accept loop waits out a delay. -/
  | backoff
  /-- The end of the endpoint's life. -/
  | closed
  deriving DecidableEq

namespace Lifecycle

def all : List Lifecycle := [.idle, .bound, .listening, .accepting, .backoff, .closed]

/-- The word for people. -/
def name : Lifecycle → String
  | .idle => "idle"
  | .bound => "bound"
  | .listening => "listening"
  | .accepting => "accepting"
  | .backoff => "backoff"
  | .closed => "closed"

/-- The word in data. -/
def tag : Lifecycle → String
  | .idle => "Idle"
  | .bound => "Bound"
  | .listening => "Listening"
  | .accepting => "Accepting"
  | .backoff => "Backoff"
  | .closed => "Closed"

def isClosed : Lifecycle → Bool
  | .closed => true
  | _ => false

/-- Whether a listener is open. -/
def isListening : Lifecycle → Bool
  | .listening | .accepting | .backoff => true
  | _ => false

end Lifecycle

/-- What other processes may do with a bound socket. -/
inductive Access where
  | readable
  | writable
  | readWrite
  deriving DecidableEq

namespace Access

def all : List Access := [.readable, .writable, .readWrite]

def name : Access → String
  | .readable => "Readable"
  | .writable => "Writable"
  | .readWrite => "ReadWrite"

/-- The bit that asks for reading. -/
def readBit : UInt32 := 4

/-- The bit that asks for writing. -/
def writeBit : UInt32 := 8

/-- Reading, writing or both; no other bits are allowed. -/
def ofBits? (bits : UInt32) : Option Access :=
  if bits = readBit then some .readable
  else if bits = writeBit then some .writable
  else if bits = readBit ||| writeBit then some .readWrite
  else none

/-- The permission bits that give this access to everyone. -/
def permissions : Access → UInt32
  | .readable => 0o444
  | .writable => 0o222
  | .readWrite => 0o666

end Access

end LocalEndpoint
