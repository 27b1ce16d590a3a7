import LocalEndpoint.Rehearsal.Settling

/-! The steps of a rehearsal. `perform` does one step, lets everything settle, and answers. -/

namespace LocalEndpoint

namespace Rehearsal

/-- One step of a rehearsal. -/
inductive Step where
  /-- Adds outcomes, so many times over, to the accept script. -/
  | script (outcomes : List Outcome) (times : Nat)
  | scriptListen (outcomes : List (Option Failure))
  | scriptConnect (plans : List ConnectPlan)
  | sleep (millis : Nat)
  | bind (name : String)
  | listen (backlog : Size) (inRuntime : Bool)
  /-- Connects and, unless in the background, waits for the end. -/
  | connect (attempt : Endpoint.Attempt) (background : Bool) (reaction : Reaction)
  | incoming
  | recv
  /-- Receives until there is no event, settling in between. -/
  | recvAll
  /-- Receives likewise and counts. -/
  | drain
  /-- Turns the receiver into a stream. -/
  | stream
  | dropIncoming
  | incomingClosed
  | dispatch (dispatcher : Dispatcher)
  | dispatcherDone
  | release (times : Nat)
  | setPending (n : Size)
  | fchmod (bits : UInt32)
  | ref
  | unref
  | close
  | takeConnection
  | config
  /-- Lets go of the endpoint. -/
  | drop

/-- What one attempt to receive gives. -/
inductive Look where
  | event (e : Event Link)
  | pending
  | ended
  /-- The consumer holds nothing to receive from. -/
  | noIncoming

/-- What a step answers. -/
inductive Answer where
  | nothing
  | flag (b : Bool)
  | maybe (b : Option Bool)
  | code (c : Code)
  | listen (result : Except EndpointError Code)
  | look (l : Look)
  | looks (ls : List Look)
  /-- How many events had each code, and what came after them. -/
  | counts (byCode : List (Code × Nat)) (last : Look)
  | handle (h : Option (Handle Link))
  | config (c : Config)
  /-- The endpoint has been let go. -/
  | noEndpoint

/-! ### Receiving -/

/-- The consumer tries once to receive. -/
def look (r : Rehearsal) : Rehearsal × Look :=
  match r.hand with
  | .empty => (r, .noIncoming)
  | .stream true => (r, .ended)
  | .receiver =>
    match r.endpoint.receive with
    | (.item event, e) => (r.put (e, [.received event]), .event event)
    | (.pending, _) => (r, .pending)
    | (.ended, _) => (r, .ended)
  | .stream false =>
    match r.endpoint.receive with
    | (.item event, e) => (r.put (e, [.received event]), .event event)
    | (.pending, _) => (r, .pending)
    | (.ended, _) =>
      ({ r with endpoint := r.endpoint.dropReceiver, hand := .stream true }, .ended)

/-- Receives up to `n` events and stops at the first look that gives none. -/
def looksUpTo : Nat → Rehearsal → Array Look → Rehearsal × Array Look
  | 0, r, acc => (r, acc)
  | n + 1, r, acc =>
    match r.look with
    | (r, .event e) => looksUpTo n r.settle (acc.push (.event e))
    | (r, l) => (r, acc.push l)

/-- Receives until there is no event: every event still to come is in the channel, held by the loop
    or in the script. -/
def lookAll (r : Rehearsal) : Rehearsal × List Look :=
  let (r, ls) := looksUpTo (r.endpoint.buffered + r.accepts.length + 2) r #[]
  (r, ls.toList)

/-- How many events of `ls` have each code. -/
def countByCode (ls : List Look) : List (Code × Nat) :=
  (Code.all.map fun c =>
    (c, ls.countP fun | .event e => e.code == c | _ => false)).filter (0 < ·.2)

/-! ### Connecting and listening -/

/-- Starts a connect and, unless it goes on in the background, sees it to its end. -/
def connect (r : Rehearsal) (attempt : Endpoint.Attempt) (background : Bool)
    (reaction : Reaction) : Rehearsal :=
  let r := r.note (r.endpoint.beginConnect attempt)
  if r.endpoint.isClosed then r.react .afterConnect reaction
  else
    let plan := r.connects.head?.getD {}
    let r := { r with connects := r.connects.tail }
    let u : UnderWay := ⟨attempt, r.now + plan.delay, plan.outcome, reaction⟩
    if plan.delay = 0 then r.land u
    else if background then { r with underWay := r.underWay ++ [u] }
    else (r.advanceTo u.due).land u

/-- Listens; the provider's answer comes from the script, which only an asked provider uses up. -/
def listen (r : Rehearsal) (backlog : Size) (inRuntime : Bool) :
    Rehearsal × Except EndpointError Code :=
  match r.endpoint.listenTarget inRuntime backlog with
  | .error _ =>
    let (e, result, os) := r.endpoint.listen inRuntime backlog (.error .listenerClosed)
    (r.put (e, os), result)
  | .ok (address, _) =>
    let answer : Except Failure String :=
      match r.listens.head?.join with
      | some f => .error f
      | none => .ok (r.props.resolved.getD ("resolved:" ++ address))
    let (e, result, os) := r.endpoint.listen inRuntime backlog answer
    ({ r with listens := r.listens.tail }.put (e, os), result)

/-! ### One step -/

/-- Whether a step needs the endpoint. -/
def Step.needsEndpoint : Step → Bool
  | .bind _ | .listen .. | .connect .. | .incoming | .release _ | .setPending _ | .fchmod _ | .ref
  | .unref | .close | .takeConnection | .config => true
  | _ => false

/-- Does a step, without what settles after it. -/
def act (r : Rehearsal) : Step → Rehearsal × Answer
  | .script outcomes times =>
    ({ r with accepts := r.accepts ++ (List.replicate times outcomes).flatten }, .nothing)
  | .scriptListen outcomes => ({ r with listens := r.listens ++ outcomes }, .nothing)
  | .scriptConnect plans => ({ r with connects := r.connects ++ plans }, .nothing)
  | .sleep millis => (r.advanceTo (r.now + millis), .nothing)
  | .bind name =>
    let (e, code) := r.endpoint.bind name
    ({ r with endpoint := e }, .code code)
  | .listen backlog inRuntime =>
    let (r, result) := r.listen backlog inRuntime
    (r, .listen result)
  | .connect attempt background reaction => (r.connect attempt background reaction, .nothing)
  | .incoming =>
    let (e, taken) := r.endpoint.takeReceiver
    ({ r with endpoint := e, hand := if taken then .receiver else r.hand }, .flag taken)
  | .recv =>
    let (r, l) := r.look
    (r, .look l)
  | .recvAll =>
    let (r, ls) := r.lookAll
    (r, .looks ls)
  | .drain =>
    let (r, ls) := r.lookAll
    (r, .counts (countByCode ls) (ls.getLast?.getD .pending))
  | .stream =>
    match r.hand with
    | .receiver => ({ r with hand := .stream false }, .flag true)
    | _ => (r, .flag false)
  | .dropIncoming =>
    match r.hand with
    | .empty => (r, .flag false)
    | _ => ({ r with endpoint := r.endpoint.dropReceiver, hand := .empty }, .flag true)
  | .incomingClosed =>
    match r.hand with
    | .receiver => (r, .maybe (some r.endpoint.isClosed))
    | _ => (r, .maybe none)
  | .dispatch d =>
    match r.hand with
    | .receiver => ({ r with hand := .empty, dispatcher := some d }, .flag true)
    | _ => (r, .flag false)
  | .dispatcherDone => (r, .maybe (r.dispatcher.map (·.finished)))
  | .release times =>
    ({ r with endpoint := Nat.repeat Endpoint.release times r.endpoint }, .nothing)
  | .setPending n => ({ r with endpoint := r.endpoint.setPendingInstances n }, .nothing)
  | .fchmod bits =>
    let (code, os) := r.endpoint.fchmod bits r.props.chmodFault
    (r.note os, .code code)
  | .ref =>
    ({ r with referenced := r.referenced || r.endpoint.holdsListener }.note r.endpoint.ref,
      .nothing)
  | .unref =>
    ({ r with referenced := r.referenced && !r.endpoint.holdsListener }.note r.endpoint.unref,
      .nothing)
  | .close => (r.close, .nothing)
  | .takeConnection =>
    let (e, h) := r.endpoint.takeConnection
    ({ r with endpoint := e }, .handle h)
  | .config => (r, .config r.endpoint.config)
  | .drop =>
    let r' := { r with owned := false }
    (if r'.exists? then r' else r'.close, .flag r.owned)

/-- Does a step, lets everything settle, and answers. The timeline is the step's own. -/
def perform (r : Rehearsal) (step : Step) : Rehearsal × Answer :=
  let r := { r with timeline := #[] }
  if step.needsEndpoint && !r.owned then (r, .noEndpoint)
  else
    let (r, answer) := r.act step
    (r.settle, answer)

end Rehearsal

end LocalEndpoint
