import LocalEndpoint.Endpoint.Loop

/-! The accept loop as a diagram: `Piece e l s f os` says that a loop of `e` that stands at `s` can
    with one piece of its work leave the endpoint as `f`, while `os` occur. `piece_advance` says
    that `advance` follows the diagram, so what every piece keeps, the loop keeps.

    starting ─▶ cycling ─▶ calling ─▶ accepting ··▶ settling ─▶ offering ⇄ reserving ─▶ admitting
                ▲  └─▶ receding ─▶ counting ─▶ napping ⇄ timing ─▶ waking               │
                │         ▲                                           │                 │
                ├─────────┼───────────────────────────────────────────┘                 │
                └─────────┴─────────────────────────────────────────────────────────────┘
    anywhere, once the endpoint is closed or nobody can receive ─▶ stopping ─▶ stopped -/

namespace LocalEndpoint

/-- Whether the loop looks here if the endpoint is closed, and stops without a word if it is. -/
def Station.leaves {C : Type} : Station C → Bool
  | .cycling | .offering _ _ | .receding | .napping _ _ | .waking => true
  | _ => false

/-- Whether the loop has a connection or a failure here that it discards on a closed endpoint. -/
def Station.discards {C : Type} : Station C → Bool
  | .settling _ | .admitting _ _ => true
  | _ => false

/-- Where the loop goes on once its event has been sent. -/
def Station.afterSending {C : Type} (retries : Bool) : Station C :=
  if retries then .receding else .cycling

namespace Endpoint

variable {C : Type}

/-- One piece of the work of a loop `l`, from a station to what it leaves and what occurs. -/
inductive Piece [Located C] (e : Endpoint C) (l : AcceptLoop C) :
    Station C → Endpoint C → List (Occurrence C) → Prop
  | begin : Piece e l .starting (e.moveTo l .cycling) [.loopStarted l.backlog]
  | leave {s} (hs : s.leaves = true) (hc : e.isClosed = true) :
      Piece e l s (e.moveTo l .stopping) []
  | discard {s} (hs : s.discards = true) (hc : e.isClosed = true) :
      Piece e l s (e.moveTo l .stopping) [.discarded]
  | throttle (hc : e.isClosed = false) (hx : e.occupancy.exceeds l.backlog = true) :
      Piece e l .cycling ((e.bump .throttled).moveTo l .receding) [.throttled e.count l.backlog]
  | cycle (hc : e.isClosed = false) (hx : e.occupancy.exceeds l.backlog = false) :
      Piece e l .cycling ({ e with state := .accepting }.moveTo l .calling) []
  | call : Piece e l .calling (e.moveTo l .accepting) [.acceptCalled]
  | await : Piece e l .accepting e []
  | succeed {c} (hc : e.isClosed = false) :
      Piece e l (.settling (.ok c))
        ({ e with retry := e.retry.reset, state := .listening }.moveTo l
          (.offering (.accepted (.accepted e.ipc c)) false))
        [.settled (.accepted (.accepted e.ipc c))]
  | fail {f} (hc : e.isClosed = false) :
      Piece e l (.settling (.error f))
        ((e.bump .acceptFailures).moveTo l (.offering (.failed (Code.forAccept f)) true))
        [.acceptFailed f, .settled (.failed (Code.forAccept f))]
  | offer {event retries} (hc : e.isClosed = false) :
      Piece e l (.offering event retries) (e.moveTo l (.reserving event retries)) []
  | forsake {event retries} (hg : e.receiverGone = true) :
      Piece e l (.reserving event retries) (e.moveTo l .stopping) [.receiverGone]
  | reserve {event retries} (hg : e.receiverGone = false) (hr : e.hasRoom = true) :
      Piece e l (.reserving event retries) (e.moveTo l (.admitting event retries)) []
  | block {event retries} (hg : e.receiverGone = false) (hr : e.hasRoom = false) :
      Piece e l (.reserving event retries) (e.moveTo l (.offering event retries)) []
  | enter {event retries} (hc : e.isClosed = false) (hh : event.handle.isSome = true) :
      Piece e l (.admitting event retries)
        ({ (e.onChannel (·.send event)).bump .accepted with
            occupancy := e.occupancy.enter }.moveTo l (.afterSending retries))
        [.admitted e.occupancy.enter.count, .sent event]
  | send {event retries} (hc : e.isClosed = false) (hh : event.handle.isSome = false) :
      Piece e l (.admitting event retries)
        ((e.onChannel (·.send event)).moveTo l (.afterSending retries)) [.sent event]
  | recede (hc : e.isClosed = false) :
      Piece e l .receding
        ({ e with state := .backoff, retry := e.retry.advance }.moveTo l (.counting e.retry.next))
        []
  | count {delay} :
      Piece e l (.counting delay) ((e.bump .backoffs).moveTo l (.napping delay false))
        [.backedOff delay]
  | nap {delay rung} (hc : e.isClosed = false) :
      Piece e l (.napping delay rung) (e.moveTo l (.timing delay rung)) []
  | sleepOn {delay} : Piece e l (.timing delay false) (e.moveTo l (.napping delay false)) []
  | wake {delay} : Piece e l (.timing delay true) (e.moveTo l .waking) []
  | resume (hc : e.isClosed = false) : Piece e l .waking (e.moveTo l .cycling) []
  | stop : Piece e l .stopping ((e.onChannel (·.hangUp)).moveTo l .stopped) [.loopStopped]
  | rest : Piece e l .stopped e []

theorem piece_beginCycle [Located C] (e : Endpoint C) (l : AcceptLoop C) :
    Piece e l .cycling (e.beginCycle l).1 (e.beginCycle l).2 := by
  cases hc : e.isClosed with
  | true => simpa [beginCycle, hc] using Piece.leave rfl hc
  | false =>
    cases hx : e.occupancy.exceeds l.backlog with
    | true => simpa [beginCycle, hc, hx] using Piece.throttle hc hx
    | false => simpa [beginCycle, hc, hx] using Piece.cycle hc hx

theorem piece_settle [Located C] (e : Endpoint C) (l : AcceptLoop C) (o : Except Failure C) :
    Piece e l (.settling o) (e.settle l o).1 (e.settle l o).2 := by
  cases hc : e.isClosed with
  | true => simpa [settle, hc] using Piece.discard rfl hc
  | false =>
    cases o with
    | ok c => simpa [settle, hc] using Piece.succeed hc
    | error f => simpa [settle, hc] using Piece.fail hc

theorem piece_reserve [Located C] (e : Endpoint C) (l : AcceptLoop C) (event : Event C)
    (retries : Bool) :
    Piece e l (.reserving event retries) (e.reserve l event retries).1
      (e.reserve l event retries).2 := by
  cases hg : e.receiverGone with
  | true => simpa [Endpoint.reserve, hg] using Piece.forsake hg
  | false =>
    cases hr : e.hasRoom with
    | true => simpa [Endpoint.reserve, hg, hr] using Piece.reserve hg hr
    | false => simpa [Endpoint.reserve, hg, hr] using Piece.block hg hr

theorem piece_admitEvent [Located C] (e : Endpoint C) (l : AcceptLoop C) (event : Event C)
    (retries : Bool) :
    Piece e l (.admitting event retries) (e.admitEvent l event retries).1
      (e.admitEvent l event retries).2 := by
  cases hc : e.isClosed with
  | true => simpa [admitEvent, hc] using Piece.discard rfl hc
  | false =>
    cases hh : event.handle.isSome with
    | true =>
      simp only [admitEvent, hc, hh, if_true, Bool.false_eq_true, if_false]
      exact .enter hc hh
    | false =>
      simp only [admitEvent, hc, hh, Bool.false_eq_true, if_false]
      exact .send hc hh

theorem piece_recede [Located C] (e : Endpoint C) (l : AcceptLoop C) :
    Piece e l .receding (e.recede l).1 (e.recede l).2 := by
  cases hc : e.isClosed with
  | true => simpa [Endpoint.recede, hc] using Piece.leave rfl hc
  | false => simpa [Endpoint.recede, hc] using Piece.recede hc

/-- The loop follows the diagram. -/
theorem piece_advance [Located C] {e : Endpoint C} {l : AcceptLoop C} (hl : e.loop = some l) :
    Piece e l l.station e.advance.1 e.advance.2 := by
  obtain ⟨b, s⟩ := l
  simp only [advance, hl]
  cases s with
  | starting => exact .begin
  | cycling => exact piece_beginCycle e _
  | calling => exact .call
  | accepting => exact .await
  | settling o => exact piece_settle e _ o
  | reserving event retries => exact piece_reserve e _ event retries
  | admitting event retries => exact piece_admitEvent e _ event retries
  | receding => exact piece_recede e _
  | counting delay => exact .count
  | stopping => exact .stop
  | stopped => exact .rest
  | timing delay rung =>
    cases rung with
    | true => exact .wake
    | false => exact .sleepOn
  | offering event retries =>
    cases hc : e.isClosed with
    | true => simpa [hc] using Piece.leave rfl hc
    | false => simpa [hc] using Piece.offer hc
  | napping delay rung =>
    cases hc : e.isClosed with
    | true => simpa [hc] using Piece.leave rfl hc
    | false => simpa [hc] using Piece.nap hc
  | waking =>
    cases hc : e.isClosed with
    | true => simpa [hc] using Piece.leave rfl hc
    | false => simpa [hc] using Piece.resume hc

/-- The diagram leaves the loop no choice. -/
theorem Piece.advance_eq [Located C] {e f : Endpoint C} {l : AcceptLoop C} {s : Station C}
    {os : List (Occurrence C)} (hp : Piece e l s f os) (hl : e.loop = some l)
    (hs : l.station = s) : e.advance = (f, os) := by
  obtain ⟨b, t⟩ := l
  cases hs
  simp only [advance, hl]
  cases hp with
  | leave hs hc => cases t <;> cases hs <;> simp [beginCycle, Endpoint.recede, hc]
  | discard hs hc => cases t <;> cases hs <;> simp [settle, admitEvent, hc]
  | throttle hc hx | cycle hc hx => simp [beginCycle, hc, hx]
  | succeed hc | fail hc => simp [settle, hc]
  | offer hc | nap hc | resume hc => simp [hc]
  | forsake hg => simp [Endpoint.reserve, hg]
  | reserve hg hr | block hg hr => simp [Endpoint.reserve, hg, hr]
  | enter hc hh =>
    simp only [admitEvent, hc, hh, Bool.false_eq_true, if_false, if_true]
    rfl
  | send hc hh =>
    simp only [admitEvent, hc, hh, Bool.false_eq_true, if_false]
    rfl
  | recede hc => simp [Endpoint.recede, hc]
  | _ => rfl

theorem advance_of_loop_eq_none [Located C] {e : Endpoint C} (hl : e.loop = none) :
    e.advance = (e, []) := by simp only [advance, hl]

end Endpoint

end LocalEndpoint
