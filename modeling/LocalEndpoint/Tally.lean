/-! Counters of what an endpoint has done. They wrap at 2⁶⁴. -/

namespace LocalEndpoint

/-- The counters' names. -/
inductive Counter where
  | accepted
  | acceptFailures
  | throttled
  | backoffs
  | connects
  | failedConnects
  deriving DecidableEq

namespace Counter

def all : List Counter :=
  [.accepted, .acceptFailures, .throttled, .backoffs, .connects, .failedConnects]

def name : Counter → String
  | .accepted => "accepted"
  | .acceptFailures => "accept_failures"
  | .throttled => "throttled"
  | .backoffs => "backoffs"
  | .connects => "connects"
  | .failedConnects => "failed_connects"

end Counter

/-- The value of every counter. -/
structure Tally where
  accepted : UInt64 := 0
  acceptFailures : UInt64 := 0
  throttled : UInt64 := 0
  backoffs : UInt64 := 0
  connects : UInt64 := 0
  failedConnects : UInt64 := 0
  deriving DecidableEq

namespace Tally

def get (t : Tally) : Counter → UInt64
  | .accepted => t.accepted
  | .acceptFailures => t.acceptFailures
  | .throttled => t.throttled
  | .backoffs => t.backoffs
  | .connects => t.connects
  | .failedConnects => t.failedConnects

def set (t : Tally) (c : Counter) (n : UInt64) : Tally :=
  match c with
  | .accepted => { t with accepted := n }
  | .acceptFailures => { t with acceptFailures := n }
  | .throttled => { t with throttled := n }
  | .backoffs => { t with backoffs := n }
  | .connects => { t with connects := n }
  | .failedConnects => { t with failedConnects := n }

/-- Counts one more of `c`. -/
def bump (t : Tally) (c : Counter) : Tally := t.set c (t.get c + 1)

theorem get_set (t : Tally) (c d : Counter) (n : UInt64) :
    (t.set c n).get d = if c = d then n else t.get d := by
  cases c <;> cases d <;> rfl

theorem get_bump (t : Tally) (c d : Counter) :
    (t.bump c).get d = if c = d then t.get c + 1 else t.get d := get_set t c d _

end Tally

end LocalEndpoint
