import LocalEndpoint.Occurrence

/-! The log: which occurrences leave a line, in which part of the program, and how the line reads.
    A line is a level, a message, and then its fields as `name=value`. -/

namespace LocalEndpoint

/-- The parts of the program that write lines. -/
inductive Source where
  | accept
  | endpoint
  | dispatch
  deriving DecidableEq

def Source.name : Source → String
  | .accept => "accept"
  | .endpoint => "endpoint"
  | .dispatch => "dispatch"

def Source.all : List Source := [.accept, .endpoint, .dispatch]

def Callback.name : Callback → String
  | .afterConnect => "after_connect"
  | .onConnection => "on_connection"

/-- One line of the log. -/
structure Line where
  source : Source
  text : String
  deriving DecidableEq

namespace Line

def debug (source : Source) (message : String) : Line := ⟨source, "DEBUG " ++ message⟩
def info (source : Source) (message : String) : Line := ⟨source, "INFO " ++ message⟩
def warn (source : Source) (message : String) : Line := ⟨source, "WARN " ++ message⟩
def error (source : Source) (message : String) : Line := ⟨source, "ERROR " ++ message⟩

/-- A field at the end of a line. -/
def field (name value : String) : String := " " ++ name ++ "=" ++ value

/-- A field whose value is a text. -/
def quotedField (name value : String) : String := field name ("\"" ++ value ++ "\"")

end Line

/-- A failure with the code it is reported as. -/
def Failure.withCode (f : Failure) (code : Code) : String := f.text ++ " (" ++ code.name ++ ")"

/-- The line that an occurrence leaves, if it leaves one. -/
def Occurrence.line? {C : Type} : Occurrence C → Option Line
  | .alreadyListening => some (.warn .endpoint "Endpoint is already listening")
  | .unaddressed => some (.warn .endpoint "Cannot listen on an endpoint without a bound address")
  | .listenFailed address f code =>
    some (.warn .endpoint ("Failed to listen on " ++ address ++ ": " ++ f.withCode code))
  | .listening address backlog =>
    some (.info .endpoint ("Listening on local socket " ++ address ++
      Line.field "backlog" (toString backlog.toNat)))
  | .connectCalled address => some (.info .endpoint ("Connecting to local socket at " ++ address))
  | .connectFailed address f =>
    some (.warn .endpoint ("Failed to connect to local socket " ++ address ++ ": " ++
      f.withCode (Code.forConnect f)))
  | .connectAborted =>
    some (.debug .endpoint "Endpoint closed while connecting, dropping connection")
  | .connected address =>
    some (.info .endpoint ("Successfully connected to local socket " ++ address))
  | .chmodFailed path fault =>
    some (.warn .endpoint ("Failed to change permissions of " ++ path ++ ": " ++ fault.message))
  | .closeFailed f => some (.debug .endpoint ("Ignoring listener close failure: " ++ f.text))
  | .closed role => some (.info .endpoint ("Endpoint closed" ++ Line.field "role" role.name))
  | .loopStarted backlog =>
    some (.debug .accept ("Accept loop started" ++ Line.field "backlog" (toString backlog.toNat)))
  | .throttled count backlog =>
    some (.warn .accept ("Connection count over backlog, throttling accept" ++
      Line.field "count" (toString count.toNat) ++ Line.field "backlog" (toString backlog.toNat)))
  | .acceptFailed f =>
    some (.warn .accept ("Failed to accept local socket connection: " ++
      f.withCode (Code.forAccept f)))
  | .discarded => some (.debug .accept "Discarding accept result after close")
  | .receiverGone => some (.debug .accept "Connection receiver dropped, stopping accept loop")
  | .admitted count =>
    some (.debug .accept ("Accepted local socket connection" ++
      Line.field "count" (toString count.toNat)))
  | .backedOff delay =>
    some (.debug .accept ("Backing off accept loop" ++ Line.field "delay" delay.text))
  | .loopStopped => some (.debug .accept "Accept loop stopped")
  | .dispatcherFinished => some (.debug .dispatch "Connection dispatcher finished")
  | .panicked callback payload =>
    some (.error .dispatch ("Discarding panic from consumer callback: " ++ payload.message ++
      Line.quotedField "callback" callback.name))
  | .listenCalled .. | .reported .. | .chmodCalled .. | .refCalled | .unrefCalled | .closeCalled
  | .acceptCalled | .settled _ | .sent _ | .received _ | .invoked _ => none

/-- The lines that one part wrote during a history. -/
def linesOf {C : Type} (source : Source) (history : List (Occurrence C)) : List String :=
  ((history.filterMap Occurrence.line?).filter (·.source == source)).map (·.text)

end LocalEndpoint
