import LocalEndpoint.Rehearsal.Basic

/-! Letting things happen. `settle` runs accept loop, dispatcher and connects until nothing more can
    happen at the present instant; `advanceTo` moves the clock, stopping at every instant at which
    something falls due. -/

namespace LocalEndpoint

namespace Rehearsal

/-! ### Delays -/

/-- The longest wait, in milliseconds: thirty years. -/
def longestNap : Nat := 30 * 365 * 24 * 60 * 60 * 1000

/-- The first millisecond at or after the end of a delay that begins now. A longer delay than the
    longest wait ends with that. -/
def napEnd (now : Nat) (delay : Span) : Nat :=
  now + min ((delay.nanos + 999999) / 1000000) longestNap

/-- Keeps the alarm of a loop that waits out a delay, and sets it when the wait begins. -/
def setAlarm (r : Rehearsal) : Rehearsal :=
  { r with alarm := r.endpoint.napDelay?.map fun delay => r.alarm.getD (napEnd r.now delay) }

/-! ### Accept loop and dispatcher -/

/-- Runs the accept loop until it waits. -/
def runLoop (r : Rehearsal) : Rehearsal := (r.put r.endpoint.run).setAlarm

/-- The pending accept ends with `outcome`. -/
def feed (r : Rehearsal) (outcome : Outcome) : Rehearsal :=
  match outcome with
  | .ok address =>
    { r with
      endpoint := r.endpoint.resolve (.ok ⟨r.acceptedLinks, address⟩)
      acceptedLinks := r.acceptedLinks + 1 }
  | .error f => { r with endpoint := r.endpoint.resolve (.error f) }

/-- Ends an accept that is pending on a closed listener, if closing wakes it. -/
def wakeAccept (r : Rehearsal) : Rehearsal :=
  if r.endpoint.awaitsAccept && r.listenerShut && r.props.wakeOnClose then
    (r.feed (.error .listenerClosed)).runLoop
  else r

/-- The dispatcher calls back for one event. -/
def invoke (r : Rehearsal) (d : Dispatcher) (event : Event Link) : Rehearsal :=
  let r := r.note [.received event, .invoked event]
  let r := r.react .onConnection
    { closes := d.closeOn == some d.calls && r.exists?
      panics := if d.panicOn.contains d.calls then some d.payload else none }
  { r with dispatcher := some { d with calls := d.calls + 1 } }

/-- The dispatcher looks for events up to `n` times. -/
def dispatchUpTo : Nat → Rehearsal → Rehearsal
  | 0, r => r
  | n + 1, r =>
    match r.dispatcher with
    | none => r
    | some d =>
      if d.finished then r
      else
        match r.endpoint.receive with
        | (.item event, e) => dispatchUpTo n ({ r with endpoint := e }.invoke d event)
        | (.pending, _) => r
        | (.ended, _) =>
          { r with
              endpoint := r.endpoint.dropReceiver
              dispatcher := some { d with finished := true } }.note [.dispatcherFinished]

/-- Runs the dispatcher until the channel is empty: one look for each event and one to find none. -/
def dispatch (r : Rehearsal) : Rehearsal := dispatchUpTo (r.endpoint.buffered + 1) r

/-- Runs the accept loop, with the dispatcher making room where the loop needs it. -/
def press (r : Rehearsal) : Rehearsal :=
  let r := r.runLoop
  if r.endpoint.waitsForRoom then r.dispatch.runLoop else r

/-- Gives the accept loop outcomes from the script as long as it asks for them. -/
def serve (r : Rehearsal) : List Outcome → Rehearsal
  | [] => { r.press.wakeAccept with accepts := [] }
  | o :: rest =>
    let r := r.press.wakeAccept
    if r.endpoint.awaitsAccept then serve (r.feed o) rest else { r with accepts := o :: rest }

/-! ### Connects -/

/-- A connect ends: the consumer's callback is called, and may close or panic. -/
def land (r : Rehearsal) (u : UnderWay) : Rehearsal :=
  let r : Rehearsal :=
    match u.outcome with
    | .ok address =>
      { r with connectedLinks := r.connectedLinks + 1 }.put
        (r.endpoint.finishConnect u.attempt (.ok ⟨1000 + r.connectedLinks, address⟩))
    | .error f => r.put (r.endpoint.finishConnect u.attempt (.error f))
  r.react .afterConnect u.reaction

/-- Ends the connects that are due. The last one to end closes an endpoint nobody else holds. -/
def landDue (r : Rehearsal) : Rehearsal :=
  let (due, later) := r.underWay.partition (·.due ≤ r.now)
  if due.isEmpty then r
  else
    let r := due.foldl land { r with underWay := later }
    if r.exists? then r else r.close

/-- Rings the alarm if it is due. -/
def ringDue (r : Rehearsal) : Rehearsal :=
  match r.alarm with
  | some t => if t ≤ r.now then { r with alarm := none, endpoint := r.endpoint.ring } else r
  | none => r

/-! ### Instants -/

/-- Lets everything happen that can happen at this instant. -/
def settle (r : Rehearsal) : Rehearsal :=
  let r := r.ringDue.landDue
  (r.serve r.accepts).dispatch.runLoop.wakeAccept

/-- The next instant at which something falls due. -/
def nextDue? (r : Rehearsal) : Option Nat :=
  ((r.alarm.toList ++ r.underWay.map (·.due)).filter (r.now < ·)).min?

/-- Moves the clock to `target`, letting happen on the way what falls due. -/
def advanceTo (r : Rehearsal) (target : Nat) : Rehearsal :=
  match r.nextDue? with
  | some t =>
    if _h : r.now < t ∧ t ≤ target then
      advanceTo { { r with now := t }.settle with now := t } target
    else { r with now := max r.now target }
  | none => { r with now := max r.now target }
termination_by target - r.now
decreasing_by exact Nat.sub_lt_sub_left (by omega) _h.1

end Rehearsal

end LocalEndpoint
