import LocalEndpoint.Failure
import LocalEndpoint.Handle
import LocalEndpoint.Span

/-! What happens while an endpoint works, one constructor for each thing that a collaborator, a
    consumer or a log can notice. A run's history is the list of its occurrences. -/

namespace LocalEndpoint

/-- The consumer callbacks that a panic can come from. -/
inductive Callback where
  | afterConnect
  | onConnection
  deriving DecidableEq

/-- What a callback panics with. -/
inductive Payload where
  /-- A text. -/
  | text (message : String)
  /-- A value of any other type. -/
  | value
  deriving DecidableEq

/-- The text a discarded panic is logged with. -/
def Payload.message : Payload → String
  | .text message => message
  | .value => "non-string panic payload"

/-- One thing that happens. -/
inductive Occurrence (C : Type) where
  /-- `listen` was called on a listening endpoint. -/
  | alreadyListening
  /-- `listen` was called on an endpoint without an address. -/
  | unaddressed
  /-- The provider is asked to listen. -/
  | listenCalled (address : String) (backlog : Size)
  | listenFailed (address : String) (failure : Failure) (code : Code)
  | listening (address : String) (backlog : Size)
  /-- The provider is asked to connect. -/
  | connectCalled (address : String)
  | connectFailed (address : String) (failure : Failure)
  /-- A connection arrived after the endpoint was closed. -/
  | connectAborted
  | connected (address : String)
  /-- The consumer is told how its connect ended. -/
  | reported (token : Nat) (code : Code)
  /-- The permission layer is asked to change a path's permissions. -/
  | chmodCalled (path : String) (permissions : UInt32)
  | chmodFailed (path : String) (fault : Fault)
  | refCalled
  | unrefCalled
  /-- The listener is asked to close. -/
  | closeCalled
  /-- The listener's answer to that was a failure, which is ignored. -/
  | closeFailed (failure : Failure)
  | closed (role : Role)
  | loopStarted (backlog : Size)
  /-- A cycle found more connections than the backlog. -/
  | throttled (count backlog : Size)
  /-- The listener is asked for a connection. -/
  | acceptCalled
  | acceptFailed (failure : Failure)
  /-- An accept settled while the endpoint was open. -/
  | settled (event : Event C)
  /-- The outcome of an accept was dropped because the endpoint has been closed. -/
  | discarded
  /-- The loop found the receiving end gone. -/
  | receiverGone
  /-- A connection was counted. -/
  | admitted (count : Size)
  /-- An event entered the channel. -/
  | sent (event : Event C)
  /-- The loop began to wait. -/
  | backedOff (delay : Span)
  | loopStopped
  /-- The consumer received an event. -/
  | received (event : Event C)
  /-- The dispatcher called its callback. -/
  | invoked (event : Event C)
  | dispatcherFinished
  /-- A panic of a callback was caught. -/
  | panicked (callback : Callback) (payload : Payload)

end LocalEndpoint
