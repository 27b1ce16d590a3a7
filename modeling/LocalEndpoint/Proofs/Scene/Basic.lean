import LocalEndpoint.Endpoint.Calls
import LocalEndpoint.Endpoint.Loop
import LocalEndpoint.Proofs.Runs

/-! An endpoint among those who act on it: its callers, the provider that answers them, the consumer
    at the receiving end, and its accept loop. A move is one indivisible thing that one of them
    does; the loop's move is one piece of its work (`advance`), so a run (a list of moves) may let
    callers come between any two pieces. The runs in which the loop is left alone until its next
    await are among them: there callers move only where the loop is `suspended`.

    A move that nothing allows, such as a poll without the receiving end, changes nothing. What a
    run shows is gathered move by move (`gather`), and `history` is what it shows of occurrences. -/

namespace LocalEndpoint

/-- How the consumer looks for an event. -/
inductive Reader where
  | direct
  /-- Through a stream, which lets go of the receiving end when it ends. -/
  | stream
  /-- In a task that calls back for each event, where the callback may panic. If what it panics with
      panics again when it is let go, a `dropReceiver` follows. -/
  | dispatcher (panics : Option Payload)
  deriving DecidableEq

/-- One indivisible thing that happens to an endpoint. -/
inductive Move (C : Type) where
  | bind (name : String)
  /-- A connect is called; `panics` tells how its callback panics if it is called at once. -/
  | connect (attempt : Endpoint.Attempt) (panics : Option Payload)
  /-- The provider answers the connect at this position of those under way. -/
  | connectEnds (position : Nat) (outcome : Except Failure C) (panics : Option Payload)
  | listen (inRuntime : Bool) (requested : Size) (answer : Except Failure String)
  /-- The consumer asks for the receiving end. -/
  | takeReceiver
  | poll (reader : Reader)
  | dropReceiver
  | release
  | setPendingInstances (n : Size)
  | fchmod (bits : UInt32) (answer : Option Fault)
  | ref
  | unref
  | takeConnection
  /-- The endpoint is closed, by a call or because it is dropped. -/
  | close (answer : Option Failure)
  /-- The accept loop does its next piece of work. -/
  | work
  /-- The pending accept has an outcome. -/
  | acceptEnds (outcome : Except Failure C)
  /-- The delay that the loop waits out is over. -/
  | delayEnds

/-- An endpoint and the connects that its provider has not answered yet. -/
structure Scene (C : Type) where
  endpoint : Endpoint C
  underWay : List Endpoint.Attempt := []

namespace Station

variable {C : Type}

/-- Whether a task that has come to this point stands at an await. -/
def suspended : Station C → Bool
  | .starting | .accepting | .settling _ | .offering _ _ | .napping _ _ | .stopped => true
  | _ => false

/-- Whether the loop has stopped, or will with its next piece of work. -/
def ends : Station C → Bool
  | .stopping | .stopped => true
  | _ => false

/-- The outcome of an accept that the loop has not taken note of yet. -/
def outcome? : Station C → Option (Except Failure C)
  | .settling outcome => some outcome
  | _ => none

/-- The event that the loop has in hand: settled and not sent. -/
def event? : Station C → Option (Event C)
  | .offering event _ | .reserving event _ | .admitting event _ => some event
  | _ => none

end Station

namespace Occurrence

variable {C : Type}

/-- Whether it is the accept loop's doing. -/
@[simp] def byLoop : Occurrence C → Bool
  | .loopStarted _ | .throttled .. | .acceptCalled | .acceptFailed _ | .settled _ | .discarded
  | .receiverGone | .admitted _ | .sent _ | .backedOff _ | .loopStopped => true
  | _ => false

/-- Whether an event reaches the consumer. -/
@[simp] def reachesConsumer : Occurrence C → Bool
  | .received _ | .invoked _ => true
  | _ => false

/-- Whether it happens on the way from the listener to the consumer. -/
def onAcceptPath (o : Occurrence C) : Bool := o.byLoop || o.reachesConsumer

/-- The event that entered the channel. -/
def sent? : Occurrence C → Option (Event C)
  | .sent event => some event
  | _ => none

/-- The event that the consumer received. -/
def received? : Occurrence C → Option (Event C)
  | .received event => some event
  | _ => none

theorem sent?_of_not_byLoop {o : Occurrence C} (h : o.byLoop = false) : o.sent? = none := by
  cases o <;> first | rfl | cases h

theorem received?_of_not_reachesConsumer {o : Occurrence C} (h : o.reachesConsumer = false) :
    o.received? = none := by
  cases o <;> first | rfl | cases h

theorem filterMap_received?_eq_nil {os : List (Occurrence C)}
    (h : ∀ o ∈ os, o.reachesConsumer = false) : os.filterMap received? = [] := by
  rw [List.filterMap_eq_nil_iff]
  intro o ho
  exact received?_of_not_reachesConsumer (h o ho)

theorem not_onAcceptPath {o : Occurrence C} (h : o.onAcceptPath = false) :
    o.byLoop = false ∧ o.reachesConsumer = false := by
  simpa [onAcceptPath] using h

theorem byLoop_of_not_onAcceptPath {os : List (Occurrence C)}
    (h : ∀ o ∈ os, o.onAcceptPath = false) : ∀ o ∈ os, o.byLoop = false := by
  intro o ho
  exact (not_onAcceptPath (h o ho)).1

end Occurrence

namespace Endpoint

variable {C : Type}

/-- Whether the loop, if there is one, stands at an await. -/
def suspended (e : Endpoint C) : Bool := e.loop.all (·.station.suspended)

/-- Whether the consumer has the receiving end. -/
def receiverTaken (e : Endpoint C) : Bool := e.channel.any (·.custody == .taken)

end Endpoint

namespace Scene

variable {C : Type}

/-- A fresh endpoint. -/
def start (role : Role) (ipc : Bool) (config : Config) : Scene C := ⟨.create role ipc config, []⟩

/-! ### One move -/

/-- The trace of a callback's panic, if it panics. -/
def panicOf (callback : Callback) (panics : Option Payload) : List (Occurrence C) :=
  (panics.map (.panicked callback)).toList

/-- Who does not look at panics sees nothing of them. -/
theorem filterMap_panicOf {β : Type} (callback : Callback) (panics : Option Payload)
    {g : Occurrence C → Option β} (hg : ∀ payload, g (.panicked callback payload) = none) :
    (panicOf callback panics).filterMap g = [] := by
  cases panics with
  | none => rfl
  | some payload => exact List.filterMap_cons_none (hg payload)

/-- A connect is called: a closed endpoint answers at once, any other asks the provider. -/
def connect (s : Scene C) (a : Endpoint.Attempt) (panics : Option Payload) :
    Scene C × List (Occurrence C) :=
  if s.endpoint.isClosed then (s, s.endpoint.beginConnect a ++ panicOf .afterConnect panics)
  else ({ s with underWay := s.underWay ++ [a] }, s.endpoint.beginConnect a)

/-- The connect at position `i` ends and calls back. -/
def connectEnds [Located C] (s : Scene C) (i : Nat) (outcome : Except Failure C)
    (panics : Option Payload) : Scene C × List (Occurrence C) :=
  match s.underWay[i]? with
  | none => (s, [])
  | some a =>
    let p := s.endpoint.finishConnect a outcome
    (⟨p.1, s.underWay.eraseIdx i⟩, p.2 ++ panicOf .afterConnect panics)

/-- The consumer looks for an event. -/
def poll (s : Scene C) (reader : Reader) : Scene C × List (Occurrence C) :=
  if s.endpoint.receiverTaken then
    let e := s.endpoint.receive.2
    match s.endpoint.receive.1, reader with
    | .pending, _ | .ended, .direct => ({ s with endpoint := e }, [])
    | .ended, .stream => ({ s with endpoint := e.dropReceiver }, [])
    | .ended, .dispatcher _ => ({ s with endpoint := e.dropReceiver }, [.dispatcherFinished])
    | .item event, .dispatcher panics =>
      ({ s with endpoint := e }, [.received event, .invoked event] ++ panicOf .onConnection panics)
    | .item event, _ => ({ s with endpoint := e }, [.received event])
  else (s, [])

/-- Puts the result of an operation in the endpoint's place. -/
def put (s : Scene C) (p : Endpoint C × List (Occurrence C)) : Scene C × List (Occurrence C) :=
  ({ s with endpoint := p.1 }, p.2)

/-- What a move leads to, and what occurs meanwhile. -/
def step [Located C] (s : Scene C) : Move C → Scene C × List (Occurrence C)
  | .bind name => s.put ((s.endpoint.bind name).1, [])
  | .connect a panics => s.connect a panics
  | .connectEnds i outcome panics => s.connectEnds i outcome panics
  | .listen inRuntime requested answer =>
    s.put ((s.endpoint.listen inRuntime requested answer).1,
      (s.endpoint.listen inRuntime requested answer).2.2)
  | .takeReceiver => s.put (s.endpoint.takeReceiver.1, [])
  | .poll reader => s.poll reader
  | .dropReceiver =>
    s.put (if s.endpoint.receiverTaken then s.endpoint.dropReceiver else s.endpoint, [])
  | .release => s.put (s.endpoint.release, [])
  | .setPendingInstances n => s.put (s.endpoint.setPendingInstances n, [])
  | .fchmod bits answer => s.put (s.endpoint, (s.endpoint.fchmod bits answer).2)
  | .ref => s.put (s.endpoint, s.endpoint.ref)
  | .unref => s.put (s.endpoint, s.endpoint.unref)
  | .takeConnection => s.put (s.endpoint.takeConnection.1, [])
  | .close answer => s.put (s.endpoint.close answer)
  | .work => s.put s.endpoint.advance
  | .acceptEnds outcome => s.put (s.endpoint.resolve outcome, [])
  | .delayEnds => s.put (s.endpoint.ring, [])

/-! ### Runs -/

variable [Located C]

/-- The scene after one move. -/
def next (s : Scene C) (m : Move C) : Scene C := (s.step m).1

/-- The scene after a run. -/
def after (s : Scene C) (ms : List (Move C)) : Scene C := ms.foldl next s

instance : Runs (after (C := C)) next := ⟨fun _ _ => rfl⟩

/-- Everything that occurs in a run. -/
def history (s : Scene C) (ms : List (Move C)) : List (Occurrence C) :=
  gather next (fun s m => (s.step m).2) s ms

/-- The accept outcomes that the loop takes note of in a move, if only to discard them. -/
def takes (s : Scene C) : Move C → List (Except Failure C)
  | .work => (s.endpoint.loop.bind (·.station.outcome?)).toList
  | _ => []

/-- The accept outcomes that settle in a move, while the endpoint is not closed. -/
def settles (s : Scene C) (m : Move C) : List (Except Failure C) :=
  if s.endpoint.isClosed then [] else s.takes m

omit [Located C] in
/-- Only the loop takes note of outcomes. -/
theorem takes_of_ne_work (s : Scene C) {m : Move C} (hm : m ≠ .work) : s.takes m = [] := by
  cases m with
  | work => exact absurd rfl hm
  | _ => rfl

omit [Located C] in
theorem settles_of_ne_work (s : Scene C) {m : Move C} (hm : m ≠ .work) : s.settles m = [] := by
  rw [settles, s.takes_of_ne_work hm, ite_self]

theorem history_concat (s : Scene C) (ms : List (Move C)) (m : Move C) :
    s.history (ms ++ [m]) = s.history ms ++ ((s.after ms).step m).2 := gather_concat after _ s ms m

/-- Letting the loop work until it waits is a run of its own moves. -/
theorem exists_after_eq_run (s : Scene C) :
    ∃ n, s.after (List.replicate n .work) = { s with endpoint := s.endpoint.run.1 } ∧
      s.history (List.replicate n .work) = s.endpoint.run.2 ∧ s.endpoint.run.1.waits = true := by
  obtain ⟨e, ws⟩ := s
  induction e using Endpoint.run.induct with
  | case1 e hw =>
    rw [Endpoint.run, dif_pos hw]
    exact ⟨0, rfl, rfl, hw⟩
  | case2 e hw ih =>
    obtain ⟨n, hn, ho, hr⟩ := ih
    rw [Endpoint.run, dif_neg hw]
    refine ⟨n + 1, hn, ?_, hr⟩
    rw [List.replicate_succ, history, gather]
    exact congrArg _ ho

end Scene

end LocalEndpoint
