/-! The closed set of codes in which operations report. Raw values are negated error numbers, with
    zero for success. -/

namespace LocalEndpoint

/-- How an operation ended. -/
inductive Code where
  | ok
  | noEntry
  | accessDenied
  | addressInUse
  | addressNotAvailable
  | connectionRefused
  | connectionAborted
  | invalidArgument
  | unknown
  deriving DecidableEq

namespace Code

def all : List Code :=
  [.ok, .noEntry, .accessDenied, .addressInUse, .addressNotAvailable, .connectionRefused,
    .connectionAborted, .invalidArgument, .unknown]

/-- The symbolic name. -/
def name : Code → String
  | .ok => "OK"
  | .noEntry => "ENOENT"
  | .accessDenied => "EACCES"
  | .addressInUse => "EADDRINUSE"
  | .addressNotAvailable => "EADDRNOTAVAIL"
  | .connectionRefused => "ECONNREFUSED"
  | .connectionAborted => "ECONNABORTED"
  | .invalidArgument => "EINVAL"
  | .unknown => "UNKNOWN"

/-- The raw value. -/
def raw : Code → Int
  | .ok => 0
  | .noEntry => -2
  | .accessDenied => -13
  | .invalidArgument => -22
  | .addressInUse => -98
  | .addressNotAvailable => -99
  | .connectionAborted => -103
  | .connectionRefused => -111
  | .unknown => -4094

def isOk : Code → Bool
  | .ok => true
  | _ => false

end Code

end LocalEndpoint
