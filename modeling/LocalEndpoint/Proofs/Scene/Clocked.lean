import LocalEndpoint.Proofs.Scene.Change
import LocalEndpoint.Rehearsal.Settling

/-! A scene with a clock, which counts nanoseconds. Time passes only where the loop can do nothing
    but wait; what anybody does takes none. When a delay ends that the loop waits out, the runtime's
    timer says: it rings at that instant, neither before nor after.

    Of what the loop does the clock shows the beats: that it begins a cycle, an accept or a delay,
    that an accept settles, and that an event enters the channel. -/

namespace LocalEndpoint

/-! ### Instants -/

/-- The first whole millisecond at or after an instant. -/
def firstMilli (t : Nat) : Nat := (t + 999999) / 1000000 * 1000000

/-- When a runtime lets a delay end, in nanoseconds. -/
structure Timer where
  /-- The end of a delay that begins at an instant. -/
  rings : Nat → Span → Nat
  /-- Whether the runtime can represent when the delay is over. -/
  represents : Nat → Span → Bool
  le_rings : ∀ t delay, t ≤ rings t delay
  rings_eq : ∀ t delay, represents t delay = true → rings t delay = firstMilli (t + delay.nanos)

/-- It is a whole millisecond, and no earlier one has the instant behind it. -/
theorem firstMilli_le_iff (t n : Nat) : firstMilli t ≤ n * 1000000 ↔ t ≤ n * 1000000 := by
  rw [firstMilli]
  omega

/-- The timer of a rehearsal, whose clock shows whole milliseconds. -/
def Timer.rehearsed : Timer where
  rings t delay := Rehearsal.napEnd ((t + 999999) / 1000000) delay * 1000000
  represents t delay :=
    t % 1000000 == 0 && decide ((delay.nanos + 999999) / 1000000 ≤ Rehearsal.longestNap)
  le_rings t delay := by
    rw [Rehearsal.napEnd]
    omega
  rings_eq t delay h := by
    obtain ⟨ht, hd⟩ : t % 1000000 = 0 ∧
        (delay.nanos + 999999) / 1000000 ≤ Rehearsal.longestNap := by
      simpa using h
    rw [Rehearsal.napEnd, firstMilli, Nat.min_eq_left hd]
    omega

/-! ### Beats -/

/-- A moment that the clock shows. -/
inductive Beat where
  /-- `listen` returned OK. -/
  | opened
  /-- A cycle begins, with so many connections, and the endpoint's backlog. -/
  | cycle (count : Size) (backlog : Option Size)
  /-- The listener is asked for a connection. -/
  | accept
  /-- An accept settled, and an event with this code tells so. -/
  | settled (code : Code)
  /-- An event with this code entered the channel. -/
  | sent (code : Code)
  /-- A delay begins. -/
  | sleep (delay : Span)
  deriving DecidableEq

/-- The beat that an occurrence is. -/
def Occurrence.beat? {C : Type} : Occurrence C → Option Beat
  | .acceptCalled => some .accept
  | .settled event => some (.settled event.code)
  | .sent event => some (.sent event.code)
  | _ => none

namespace Endpoint

variable {C : Type}

/-- The beat of a piece of work without an occurrence, from the endpoint before and after it. -/
def stir? (e f : Endpoint C) : Option Beat :=
  match e.loop, f.loop with
  | some ⟨_, .cycling⟩, _ => if e.isClosed then none else some (.cycle e.count e.backlog)
  | some ⟨_, .receding⟩, some ⟨_, .counting delay⟩ => some (.sleep delay)
  | _, _ => none

/-- The beats of a move that leaves the endpoint as `f`, while `os` occur. -/
def beats (e f : Endpoint C) (os : List (Occurrence C)) : Move C → List Beat
  | .listen inRuntime requested answer =>
    match (e.listen inRuntime requested answer).2.1 with
    | .ok .ok => [.opened]
    | _ => []
  | .work => os.filterMap Occurrence.beat? ++ (e.stir? f).toList
  | _ => []

end Endpoint

/-- The beats of a move. -/
def Scene.beats {C : Type} [Located C] (s : Scene C) (m : Move C) : List Beat :=
  s.endpoint.beats (s.next m).endpoint (s.step m).2 m

/-! ### Time -/

/-- The alarm after a piece of work at a station: a loop that begins to wait out a delay sets it. -/
def Station.alarm {C : Type} (timer : Timer) (now alarm : Nat) : Station C → Nat
  | .counting delay => timer.rings now delay
  | _ => alarm

/-- A scene, the time, and when the last delay ends that the loop began to wait out. -/
structure Clocked (C : Type) where
  scene : Scene C
  now : Nat := 0
  alarm : Nat := 0

/-- What can happen: a move, or that time passes. -/
inductive Tick (C : Type) where
  | move (m : Move C)
  | pass (span : Nat)

namespace Clocked

variable {C : Type}

/-- A fresh endpoint at the beginning of time. -/
def start (role : Role) (ipc : Bool) (config : Config) : Clocked C :=
  { scene := .start role ipc config }

/-- Whether a move can come now: a delay ends when the timer rings. -/
def admits (c : Clocked C) : Move C → Bool
  | .delayEnds => c.alarm ≤ c.now
  | _ => true

/-- Whether so much time can pass before anything else happens. -/
def lets (c : Clocked C) (span : Nat) : Bool :=
  c.scene.endpoint.waits &&
    (c.scene.endpoint.napDelay?.isNone || decide (c.now + span ≤ c.alarm))

/-- The alarm after a move. -/
def alarmAfter (timer : Timer) (c : Clocked C) : Move C → Nat
  | .work => (c.scene.endpoint.loop.map (·.station.alarm timer c.now c.alarm)).getD c.alarm
  | _ => c.alarm

variable [Located C]

/-- What happens, and its beats. What cannot happen changes nothing. -/
def step (timer : Timer) (c : Clocked C) : Tick C → Clocked C × List (Nat × Beat)
  | .move m =>
    if c.admits m then
      (⟨c.scene.next m, c.now, c.alarmAfter timer m⟩, (c.scene.beats m).map (c.now, ·))
    else (c, [])
  | .pass span => if c.lets span then ({ c with now := c.now + span }, []) else (c, [])

def next (timer : Timer) (c : Clocked C) (k : Tick C) : Clocked C := (c.step timer k).1

/-- What is there after a run. -/
def after (timer : Timer) (c : Clocked C) (ks : List (Tick C)) : Clocked C :=
  ks.foldl (next timer) c

instance (timer : Timer) : Runs (after (C := C) timer) (next timer) := ⟨fun _ _ => rfl⟩

/-- The beats of a run, each with its time. -/
def beats (timer : Timer) (c : Clocked C) (ks : List (Tick C)) : List (Nat × Beat) :=
  gather (next timer) (fun c k => (c.step timer k).2) c ks

variable (timer : Timer) (c : Clocked C)

theorem beats_concat (ks : List (Tick C)) (k : Tick C) :
    c.beats timer (ks ++ [k]) = c.beats timer ks ++ ((c.after timer ks).step timer k).2 :=
  gather_concat (after timer) _ c ks k

/-- The moves that happen in a run. -/
def moves : Clocked C → List (Tick C) → List (Move C)
  | _, [] => []
  | c, .move m :: ks =>
    if c.admits m then m :: moves (c.next timer (.move m)) ks else moves (c.next timer (.move m)) ks
  | c, .pass span :: ks => moves (c.next timer (.pass span)) ks

/-- With the time left out, a run is a run of the scene. -/
theorem scene_after (ks : List (Tick C)) :
    (c.after timer ks).scene = c.scene.after (c.moves timer ks) := by
  induction ks generalizing c with
  | nil => rfl
  | cons k ks ih =>
    refine (ih (c.next timer k)).trans ?_
    cases k with
    | move m =>
      rw [moves, next, step]
      split <;> rfl
    | pass span =>
      rw [moves, next, step]
      split <;> rfl

end Clocked

end LocalEndpoint
