import LocalEndpoint.Code

/-! What collaborators fail with, the code each operation reports for it, and the two texts people
    see: a provider's failure and an endpoint's fatal error. -/

namespace LocalEndpoint

/-- The kinds of input and output failure that the operating system distinguishes. -/
inductive FaultKind where
  | notFound | permissionDenied | connectionRefused | connectionReset | hostUnreachable
  | networkUnreachable | connectionAborted | notConnected | addrInUse | addrNotAvailable
  | networkDown | brokenPipe | alreadyExists | wouldBlock | notADirectory | isADirectory
  | directoryNotEmpty | readOnlyFilesystem | filesystemLoop | staleNetworkFileHandle
  | invalidInput | invalidData | timedOut | writeZero | storageFull | notSeekable
  | quotaExceeded | fileTooLarge | resourceBusy | executableFileBusy | deadlock
  | crossesDevices | tooManyLinks | invalidFilename | argumentListTooLong | interrupted
  | unsupported | unexpectedEof | outOfMemory | inProgress | tooManyOpenFiles | other
  | uncategorized
  deriving DecidableEq

namespace FaultKind

/-- Each kind with its name. -/
def table : List (FaultKind × String) :=
  [(.notFound, "NotFound"), (.permissionDenied, "PermissionDenied"),
    (.connectionRefused, "ConnectionRefused"), (.connectionReset, "ConnectionReset"),
    (.hostUnreachable, "HostUnreachable"), (.networkUnreachable, "NetworkUnreachable"),
    (.connectionAborted, "ConnectionAborted"), (.notConnected, "NotConnected"),
    (.addrInUse, "AddrInUse"), (.addrNotAvailable, "AddrNotAvailable"),
    (.networkDown, "NetworkDown"), (.brokenPipe, "BrokenPipe"),
    (.alreadyExists, "AlreadyExists"), (.wouldBlock, "WouldBlock"),
    (.notADirectory, "NotADirectory"), (.isADirectory, "IsADirectory"),
    (.directoryNotEmpty, "DirectoryNotEmpty"), (.readOnlyFilesystem, "ReadOnlyFilesystem"),
    (.filesystemLoop, "FilesystemLoop"), (.staleNetworkFileHandle, "StaleNetworkFileHandle"),
    (.invalidInput, "InvalidInput"), (.invalidData, "InvalidData"), (.timedOut, "TimedOut"),
    (.writeZero, "WriteZero"), (.storageFull, "StorageFull"), (.notSeekable, "NotSeekable"),
    (.quotaExceeded, "QuotaExceeded"), (.fileTooLarge, "FileTooLarge"),
    (.resourceBusy, "ResourceBusy"), (.executableFileBusy, "ExecutableFileBusy"),
    (.deadlock, "Deadlock"), (.crossesDevices, "CrossesDevices"),
    (.tooManyLinks, "TooManyLinks"), (.invalidFilename, "InvalidFilename"),
    (.argumentListTooLong, "ArgumentListTooLong"), (.interrupted, "Interrupted"),
    (.unsupported, "Unsupported"), (.unexpectedEof, "UnexpectedEof"),
    (.outOfMemory, "OutOfMemory"), (.inProgress, "InProgress"),
    (.tooManyOpenFiles, "TooManyOpenFiles"), (.other, "Other"), (.uncategorized, "Uncategorized")]

def name (k : FaultKind) : String := (table.lookup k).getD "Uncategorized"

def ofName? (s : String) : Option FaultKind := (table.find? (·.2 == s)).map (·.1)

/-- The kind that Linux's error number `n` belongs to. -/
def ofErrorNumber (n : Int) : FaultKind :=
  match n with
  | 1 | 13 => .permissionDenied
  | 2 => .notFound
  | 4 => .interrupted
  | 7 => .argumentListTooLong
  | 11 => .wouldBlock
  | 12 => .outOfMemory
  | 16 => .resourceBusy
  | 17 => .alreadyExists
  | 18 => .crossesDevices
  | 20 => .notADirectory
  | 21 => .isADirectory
  | 22 => .invalidInput
  | 23 | 24 => .tooManyOpenFiles
  | 26 => .executableFileBusy
  | 27 => .fileTooLarge
  | 28 => .storageFull
  | 29 => .notSeekable
  | 30 => .readOnlyFilesystem
  | 31 => .tooManyLinks
  | 32 => .brokenPipe
  | 35 => .deadlock
  | 36 => .invalidFilename
  | 38 | 95 => .unsupported
  | 39 => .directoryNotEmpty
  | 40 => .filesystemLoop
  | 98 => .addrInUse
  | 99 => .addrNotAvailable
  | 100 => .networkDown
  | 101 => .networkUnreachable
  | 103 => .connectionAborted
  | 104 => .connectionReset
  | 107 => .notConnected
  | 110 => .timedOut
  | 111 => .connectionRefused
  | 113 => .hostUnreachable
  | 115 => .inProgress
  | 116 => .staleNetworkFileHandle
  | 122 => .quotaExceeded
  | _ => .uncategorized

end FaultKind

/-- One failure of input or output: its kind and its own text. -/
structure Fault where
  kind : FaultKind
  message : String
  deriving DecidableEq

/-- What a provider, a listener or an accept fails with. -/
inductive Failure where
  /-- The listener was closed. -/
  | listenerClosed
  /-- Input or output failed. -/
  | io (fault : Fault)
  deriving DecidableEq

namespace Failure

def kind? : Failure → Option FaultKind
  | .listenerClosed => none
  | .io fault => some fault.kind

def isListenerClosed : Failure → Bool
  | .listenerClosed => true
  | .io _ => false

/-- The text people see. -/
def text : Failure → String
  | .listenerClosed => "Listener closed"
  | .io fault => "IO error: " ++ fault.message

/-- The texts of the failures behind this one. -/
def causes : Failure → List String
  | .listenerClosed => []
  | .io fault => [fault.message]

end Failure

/-- What `listen` makes of a provider's failure. -/
inductive ListenVerdict where
  /-- Report this code. -/
  | report (code : Code)
  /-- Raise the failure as a fatal error. -/
  | raise
  deriving DecidableEq

namespace Code

/-- A failed connect: a missing path and a denied permission stand out, all else is a refusal. -/
def forConnect (f : Failure) : Code :=
  match f.kind? with
  | some .notFound => .noEntry
  | some .permissionDenied => .accessDenied
  | _ => .connectionRefused

/-- A failed listen: a denied permission has no code and is raised. -/
def forListen (f : Failure) : ListenVerdict :=
  match f.kind? with
  | some .addrInUse => .report .addressInUse
  | some .addrNotAvailable => .report .addressNotAvailable
  | some .permissionDenied => .raise
  | _ => .report .unknown

/-- A failed accept. -/
def forAccept (f : Failure) : Code :=
  match f.kind? with
  | some .connectionAborted => .connectionAborted
  | some .permissionDenied => .accessDenied
  | _ => .unknown

/-- A failed change of permissions, whatever failed. -/
def forChmod (_ : Fault) : Code := .unknown

end Code

/-- Fatal errors of an endpoint, which no code expresses. -/
inductive EndpointError where
  /-- Opening the listener was denied. -/
  | permissionDenied (address : String) (source : Failure)
  /-- The endpoint has been closed. -/
  | closed
  /-- There is no runtime to drive the accept loop. -/
  | noRuntime
  deriving DecidableEq

namespace EndpointError

def message : EndpointError → String
  | .permissionDenied address source =>
    "Permission denied while listening on " ++ address ++ ": " ++ source.text
  | .closed => "Endpoint is closed"
  | .noRuntime => "No tokio runtime available to drive the accept loop"

/-- The texts of the errors behind this one, nearest first. -/
def causes : EndpointError → List String
  | .permissionDenied _ source => source.text :: source.causes
  | .closed | .noRuntime => []

end EndpointError

end LocalEndpoint
