import LocalEndpoint.Endpoint.Basic
import LocalEndpoint.Occurrence

/-! The accept loop. `advance` does its next piece of work, `waits` tells when it can only wait, and
    `run` advances it until then; `rank_advance` bounds the number of pieces, so a run always comes
    to wait. The outcome of an accept (`resolve`) and the end of a delay (`ring`) come from
    outside. -/

namespace LocalEndpoint

/-- How far a station is from waiting; `free` tells whether the channel would let the loop pass. -/
def Station.rank {C : Type} (free : Bool) : Station C → Nat
  | .starting => 30
  | .reserving _ _ => if free then 18 else 21
  | .settling _ => 20
  | .offering _ _ => 19
  | .napping _ true => 18
  | .admitting _ _ => 17
  | .timing _ true => 17
  | .waking => 16
  | .cycling => 15
  | .receding => 10
  | .counting _ => 9
  | .calling => 8
  | .timing _ false => 4
  | .napping _ false => 3
  | .stopping => 1
  | .accepting | .stopped => 0

namespace Endpoint

variable {C : Type}

/-- The loop goes on to another station. -/
def moveTo (e : Endpoint C) (l : AcceptLoop C) (s : Station C) : Endpoint C :=
  { e with loop := some { l with station := s } }

/-- The loop decides what its cycle does: stop, wait, or begin an accept. -/
def beginCycle (e : Endpoint C) (l : AcceptLoop C) : Endpoint C × List (Occurrence C) :=
  if e.isClosed then (e.moveTo l .stopping, [])
  else if e.occupancy.exceeds l.backlog then
    ((e.bump .throttled).moveTo l .receding, [.throttled e.count l.backlog])
  else ({ e with state := .accepting }.moveTo l .calling, [])

/-- The loop takes note of an accept's outcome. -/
def settle [Located C] (e : Endpoint C) (l : AcceptLoop C) (outcome : Except Failure C) :
    Endpoint C × List (Occurrence C) :=
  if e.isClosed then (e.moveTo l .stopping, [.discarded])
  else
    match outcome with
    | .ok c =>
      let event := Event.accepted (Handle.accepted e.ipc c)
      ({ e with retry := e.retry.reset, state := .listening }.moveTo l (.offering event false),
        [.settled event])
    | .error f =>
      let event := Event.failed (Code.forAccept f)
      ((e.bump .acceptFailures).moveTo l (.offering event true), [.acceptFailed f, .settled event])

/-- The loop looks for room in the channel. -/
def reserve (e : Endpoint C) (l : AcceptLoop C) (event : Event C) (retries : Bool) :
    Endpoint C × List (Occurrence C) :=
  if e.receiverGone then (e.moveTo l .stopping, [.receiverGone])
  else if e.hasRoom then (e.moveTo l (.admitting event retries), [])
  else (e.moveTo l (.offering event retries), [])

/-- An event enters the channel, and its connection, if it has one, is counted. -/
def admitEvent (e : Endpoint C) (l : AcceptLoop C) (event : Event C) (retries : Bool) :
    Endpoint C × List (Occurrence C) :=
  if e.isClosed then (e.moveTo l .stopping, [.discarded])
  else
    let next : Station C := if retries then .receding else .cycling
    let filled := e.onChannel (·.send event)
    if event.handle.isSome then
      let counted := { filled.bump .accepted with occupancy := e.occupancy.enter }
      (counted.moveTo l next, [.admitted counted.count, .sent event])
    else (filled.moveTo l next, [.sent event])

/-- The loop takes the next delay. -/
def recede (e : Endpoint C) (l : AcceptLoop C) : Endpoint C × List (Occurrence C) :=
  if e.isClosed then (e.moveTo l .stopping, [])
  else
    ({ e with state := .backoff, retry := e.retry.advance }.moveTo l (.counting e.retry.next), [])

/-- The loop's next piece of work; nothing where it can only wait for an outcome or has ended. -/
def advance [Located C] (e : Endpoint C) : Endpoint C × List (Occurrence C) :=
  match e.loop with
  | none => (e, [])
  | some l =>
    match l.station with
    | .starting => (e.moveTo l .cycling, [.loopStarted l.backlog])
    | .cycling => e.beginCycle l
    | .calling => (e.moveTo l .accepting, [.acceptCalled])
    | .accepting => (e, [])
    | .settling outcome => e.settle l outcome
    | .offering event retries =>
      if e.isClosed then (e.moveTo l .stopping, []) else (e.moveTo l (.reserving event retries), [])
    | .reserving event retries => e.reserve l event retries
    | .admitting event retries => e.admitEvent l event retries
    | .receding => e.recede l
    | .counting delay => ((e.bump .backoffs).moveTo l (.napping delay false), [.backedOff delay])
    | .napping delay rung =>
      if e.isClosed then (e.moveTo l .stopping, []) else (e.moveTo l (.timing delay rung), [])
    | .timing delay rung =>
      if rung then (e.moveTo l .waking, []) else (e.moveTo l (.napping delay false), [])
    | .waking =>
      if e.isClosed then (e.moveTo l .stopping, []) else (e.moveTo l .cycling, [])
    | .stopping =>
      ((e.onChannel (·.hangUp)).moveTo l .stopped, [.loopStopped])
    | .stopped => (e, [])

/-! ### Waiting -/

/-- Whether the loop waits for room in the channel. -/
def waitsForRoom (e : Endpoint C) : Bool :=
  match e.loop with
  | some ⟨_, .offering _ _⟩ => !e.isClosed && !e.receiverGone && !e.hasRoom
  | _ => false

/-- Whether an accept is pending. -/
def awaitsAccept (e : Endpoint C) : Bool :=
  match e.loop with
  | some ⟨_, .accepting⟩ => true
  | _ => false

/-- The delay that the loop waits out. -/
def napDelay? (e : Endpoint C) : Option Span :=
  match e.loop with
  | some ⟨_, .napping delay false⟩ => if e.isClosed then none else some delay
  | _ => none

/-- Whether the loop has ended. -/
def loopEnded (e : Endpoint C) : Bool :=
  match e.loop with
  | some ⟨_, .stopped⟩ => true
  | _ => false

/-- Whether the loop has nothing to do until something happens outside. -/
def waits (e : Endpoint C) : Bool :=
  e.loop.isNone || e.awaitsAccept || e.waitsForRoom || e.napDelay?.isSome || e.loopEnded

/-- The pending accept has an outcome. -/
def resolve (e : Endpoint C) (outcome : Except Failure C) : Endpoint C :=
  match e.loop with
  | some ⟨b, .accepting⟩ => { e with loop := some ⟨b, .settling outcome⟩ }
  | _ => e

/-- The delay that the loop waits out is over. -/
def ring (e : Endpoint C) : Endpoint C :=
  match e.loop with
  | some ⟨b, .napping delay _⟩ => { e with loop := some ⟨b, .napping delay true⟩ }
  | _ => e

/-! ### Running until it waits -/

/-- Whether the channel would let the loop pass: there is room, or nobody to receive. -/
def channelFree (e : Endpoint C) : Bool := e.hasRoom || e.receiverGone

/-- How far the loop is from waiting. -/
def rank (e : Endpoint C) : Nat :=
  match e.loop with
  | none => 0
  | some l => l.station.rank e.channelFree

@[simp] theorem rank_moveTo (e : Endpoint C) (l : AcceptLoop C) (s : Station C) :
    (e.moveTo l s).rank = s.rank e.channelFree := rfl

theorem rank_of_loop {e : Endpoint C} {l : AcceptLoop C} (h : e.loop = some l) :
    e.rank = l.station.rank e.channelFree := by simp only [rank, h]

/-- A loop that does not wait is nearer to waiting after its next piece of work. -/
theorem rank_advance [Located C] (e : Endpoint C) (h : e.waits = false) :
    e.advance.1.rank < e.rank := by
  obtain hl | ⟨⟨b, s⟩, hl⟩ := Option.eq_none_or_eq_some e.loop
  · simp [waits, hl] at h
  rw [rank_of_loop hl]
  simp only [waits, awaitsAccept, waitsForRoom, napDelay?, loopEnded, hl] at h
  cases s with
  | starting => simp [advance, hl, Station.rank]
  | calling => simp [advance, hl, Station.rank]
  | counting d => simp [advance, hl, Station.rank]
  | stopping => simp [advance, hl, Station.rank]
  | accepting => simp at h
  | stopped => simp at h
  | waking => simp only [advance, hl]; split <;> simp [Station.rank]
  | receding => simp only [advance, hl, recede]; split <;> simp [Station.rank]
  | cycling =>
    simp only [advance, hl, beginCycle]
    split
    · simp [Station.rank]
    · split <;> simp [Station.rank]
  | settling o =>
    simp only [advance, hl, settle]
    split
    · simp [Station.rank]
    · cases o <;> simp [Station.rank]
  | admitting event retries =>
    simp only [advance, hl, admitEvent]
    split
    · simp [Station.rank]
    · split <;> cases retries <;> simp [Station.rank]
  | reserving event retries =>
    simp only [advance, hl, reserve]
    split
    · next hg => simp [Station.rank, channelFree, hg]
    · next hg =>
      split
      · next hr => simp [Station.rank, channelFree, hr]
      · next hr => simp [Station.rank, channelFree, hr, hg]
  | offering event retries =>
    simp only [advance, hl]
    split
    · simp [Station.rank]
    · next hc =>
      have hf : e.channelFree = true := by
        simp [hc] at h
        rw [channelFree]
        cases hg : e.receiverGone <;> simp_all
      simp [Station.rank, hf]
  | napping d rung =>
    cases rung with
    | true => simp only [advance, hl]; split <;> simp [Station.rank]
    | false =>
      have hc : e.isClosed = true := by
        cases hc : e.isClosed <;> simp [hc] at h ⊢
      simp [advance, hl, hc, Station.rank]
  | timing d rung => cases rung <;> simp [advance, hl, Station.rank]

/-- Advances the loop until it waits. -/
def run [Located C] (e : Endpoint C) : Endpoint C × List (Occurrence C) :=
  if _h : e.waits then (e, [])
  else
    let rest := run e.advance.1
    (rest.1, e.advance.2 ++ rest.2)
termination_by e.rank
decreasing_by exact rank_advance e (by simpa using _h)

end Endpoint

end LocalEndpoint
