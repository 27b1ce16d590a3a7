import LocalEndpoint.Proofs.Conservation
import LocalEndpoint.Proofs.Lifecycle
import LocalEndpoint.Proofs.Streaming

/-! What the visible state tells about the accept loop. The loop changes it at three places: where
    it begins to accept, where an accept succeeds, and where it takes a delay. An accept that fails
    changes nothing, so until the delay begins the endpoint still says that it accepts, even while
    the failure waits for room in the channel.

    `Station.Shows` lists the states that can be seen at each point of the loop; where the loop
    waits there is one (`state_tells_wait`). -/

namespace LocalEndpoint

/-- Whether this state can be seen of an open endpoint whose loop stands here. -/
def Station.Shows {C : Type} : Station C → Lifecycle → Prop
  | .starting, state => state = .listening
  | .cycling, state => state = .listening ∨ state = .backoff
  | .calling, state | .accepting, state | .settling _, state => state = .accepting
  | .offering _ retries, state | .reserving _ retries, state | .admitting _ retries, state =>
    state = if retries then .accepting else .listening
  | .counting _, state | .napping _ _, state | .timing _ _, state | .waking, state =>
    state = .backoff
  | .receding, _ | .stopping, _ | .stopped, _ => True

namespace Endpoint

variable {C : Type}

theorem run_of_waits [Located C] {e : Endpoint C} (h : e.waits = true) : e.run = (e, []) := by
  rw [run, dif_pos h]

/-- As long as the endpoint is open its state is one that its loop shows. -/
def Shown (e : Endpoint C) : Prop :=
  e.isClosed = false → ∀ l ∈ e.loop, l.station.Shows e.state

/-- Whether an event waits for room that brings a connection (`ok`), or reports a failure. -/
def HoldsBack (e : Endpoint C) (ok : Bool) : Prop :=
  e.waitsForRoom = true ∧ ∃ event, e.holding? = some (.report event) ∧ event.isOk = ok

theorem Shown.congr {e f : Endpoint C} (h : e.Shown) (hl : f.loop = e.loop)
    (hs : f.state = e.state) : f.Shown := by
  intro ho l hm
  rw [isClosed, hs] at ho
  rw [hl] at hm
  rw [hs]
  exact h ho l hm

/-- The loop goes on to a station that shows the state. -/
theorem shown_of_loop {f : Endpoint C} {l : AcceptLoop C} {s : Station C}
    (hf : f.loop = some { l with station := s }) (hs : s.Shows f.state) : f.Shown := by
  intro _ l' hl'
  rw [hf] at hl'
  cases hl'
  exact hs

theorem Piece.shown [Located C] {e f : Endpoint C} {l : AcceptLoop C} {s : Station C}
    {os : List (Occurrence C)} (hp : Piece e l s f os) (hl : e.loop = some l)
    (hs : l.station = s) (he : e.Shown) : f.Shown := by
  intro ho
  have hopen : e.isClosed = false := hp.isClosed_eq.symm.trans ho
  have hshows : s.Shows e.state := hs ▸ he hopen l hl
  revert ho
  change f.Shown
  cases hp with
  | await | rest => exact he
  | begin => exact shown_of_loop rfl (.inl hshows)
  | leave _ hc | discard _ hc => rw [hopen] at hc; cases hc
  | cycle | succeed | recede => exact shown_of_loop rfl rfl
  | call => exact shown_of_loop rfl hshows
  | fail | offer | reserve | block => exact shown_of_loop rfl hshows
  | throttle | forsake | stop => exact shown_of_loop rfl trivial
  | @enter _ retries | @send _ retries =>
    cases retries with
    | true => exact shown_of_loop rfl trivial
    | false => exact shown_of_loop rfl (.inl hshows)
  | count | nap | sleepOn | wake => exact shown_of_loop rfl hshows
  | resume => exact shown_of_loop rfl (.inr hshows)

end Endpoint

namespace Scene

variable {C : Type} [Located C]

/-- Every move leaves a state that the loop shows. -/
theorem shown_next (s : Scene C) (m : Move C) (hs : s.endpoint.Sound) (h : s.endpoint.Shown) :
    (s.next m).endpoint.Shown := by
  have hc := s.change_step m
  by_cases ha : m.aside = true
  · obtain ⟨hb, -⟩ := s.beside_next ha
    rcases s.state_next_of_aside ha with hsame | ⟨hidle, -⟩
    · exact h.congr hb.loop hsame
    · -- An idle endpoint has no loop that could show anything.
      intro ho l hl
      have hnone : s.endpoint.loop.isSome = false := by
        rw [hs.loop (hb.closed.symm.trans ho), hidle]
        rfl
      rw [hb.loop] at hl
      rw [Option.mem_def.mp hl] at hnone
      cases hnone
  generalize (s.next m).endpoint = f, (s.step m).2 = os at hc
  cases hc with
  | aside hm => exact absurd hm ha
  | receiving | release => exact h.congr rfl rfl
  | opening =>
    intro _ l hl
    cases hl
    rfl
  | closing => intro ho; cases ho
  | piece hl hst hp => exact hp.shown hl hst h
  | answered hl hst | rung hl hst =>
    intro ho
    have hshows := h ho _ hl
    rw [hst] at hshows
    exact Endpoint.shown_of_loop rfl hshows ho
  | _ => exact h

theorem shown_after (role : Role) (ipc : Bool) (config : Config) (ms : List (Move C)) :
    ((start role ipc config).after ms).endpoint.Shown := by
  induction ms using List.reverseRecOn with
  | nil => intro _ l hl; cases hl
  | append_singleton ms m ih =>
    rw [Runs.concat after]
    exact shown_next _ m (sound_after role ipc config ms) ih

/-- What the visible state tells. Let any run of a fresh endpoint be followed by what the loop does
    until it can only wait, and let the endpoint listen with the receiving end still there. Then it
    says that it backs off exactly if the loop waits out a delay, and that it listens exactly if a
    connection waits for room in the channel. It says that it accepts if an accept is pending, and
    also if a failure waits for room. So the three states name the three ways to wait exactly as
    long as no failure waits for room. -/
theorem state_tells_wait (role : Role) (ipc : Bool) (config : Config) (ms : List (Move C)) :
    let e := ((start role ipc config).after ms).endpoint.run.1
    e.state.isListening = true → e.receiverGone = false →
      (e.state = .accepting ↔ e.awaitsAccept = true ∨ e.HoldsBack false) ∧
      (e.state = .backoff ↔ e.napDelay?.isSome = true) ∧
      (e.state = .listening ↔ e.HoldsBack true) ∧
      (((e.state = .accepting ↔ e.awaitsAccept = true) ∧
          (e.state = .backoff ↔ e.napDelay?.isSome = true) ∧
          (e.state = .listening ↔ e.waitsForRoom = true)) ↔ ¬ e.HoldsBack false) := by
  intro e hlistening hthere
  obtain ⟨n, hrun, -, hwaits⟩ := ((start role ipc config).after ms).exists_after_eq_run
  rw [← Runs.append after] at hrun
  have he : ((start role ipc config).after (ms ++ List.replicate n .work)).endpoint = e := by
    rw [hrun]
  have hs : e.Sound := he ▸ sound_after role ipc config _
  have hshown : e.Shown := he ▸ shown_after role ipc config _
  have hmatched : e.Matched := he ▸ matched_after role ipc config _
  have hsupplied : e.Supplied := he ▸ supplied_after role ipc config _
  have ho : e.isClosed = false := Endpoint.isClosed_of_isListening hlistening
  obtain ⟨⟨b, s⟩, hl⟩ := Option.isSome_iff_exists.mp ((hs.loop ho).trans hlistening)
  have hshows : s.Shows e.state := hshown ho _ hl
  change e.waits = true at hwaits
  simp only [Endpoint.waits, Endpoint.awaitsAccept, Endpoint.waitsForRoom, Endpoint.napDelay?,
    Endpoint.loopEnded, hl] at hwaits
  simp only [Endpoint.HoldsBack, Endpoint.awaitsAccept, Endpoint.waitsForRoom, Endpoint.napDelay?,
    Endpoint.holding?, hl]
  cases s with
  | accepting =>
    have hstate : e.state = .accepting := hshows
    simp [hstate]
  | offering event retries =>
    have hroom : (!e.isClosed && !e.receiverGone && !e.hasRoom) = true := by simpa using hwaits
    have hok : event.isOk = !retries := (hmatched _ hl).1
    have hstate : e.state = if retries then .accepting else .listening := hshows
    cases retries <;> simp [hstate, hroom, hok]
  | napping delay rung =>
    have hstate : e.state = .backoff := hshows
    cases rung with
    | true => cases hwaits
    | false => simp [hstate, ho]
  | stopped =>
    -- The loop of an open endpoint stops only where the receiving end is gone.
    cases hch : e.channel with
    | none => simp [Endpoint.receiverGone, hch] at hthere
    | some ch =>
      have hkept : ch.custody ≠ .dropped := by
        simpa [Endpoint.receiverGone, hch, Channel.abandoned] using hthere
      have hending : e.ending = false := (hsupplied ho ch hch hkept).2
      rw [Endpoint.ending_of_loop hl] at hending
      cases hending
  | _ => cases hwaits

/-- Settings under which the channel has room for one event. -/
def singlePlace : Config := { rule := .pendingInstances, pendingInstances := 1 }

/-- A connection takes the channel's only place, and the next accept fails. -/
def clogging : List (Move Link) :=
  [.bind "/run/app.sock", .listen true 0 (.ok "resolved:/run/app.sock"), .work, .work, .work,
    .acceptEnds (.ok ⟨0, none⟩), .work, .work, .work, .work, .work, .work,
    .acceptEnds (.error (.io ⟨.connectionAborted, "scripted ConnectionAborted"⟩)), .work]

theorem state_tells_wait_of_clogging :
    let e := ((start .server false singlePlace).after clogging).endpoint.run.1
    e.state.isListening = true ∧ e.receiverGone = false ∧ e.state = .accepting ∧
      e.HoldsBack false := by
  have hwaits : ((start .server false singlePlace).after clogging).endpoint.waits = true := by
    decide
  have hlaw := state_tells_wait .server false singlePlace clogging
  rw [Endpoint.run_of_waits hwaits] at hlaw ⊢
  obtain ⟨haccepting, -⟩ := hlaw (by decide) (by decide)
  have hstate : ((start .server false singlePlace).after clogging).endpoint.state = .accepting := by
    decide
  have hnone :
      ((start .server false singlePlace).after clogging).endpoint.awaitsAccept = false := by
    decide
  refine ⟨by decide, by decide, hstate, ?_⟩
  rcases haccepting.mp hstate with hpending | hback
  · rw [hnone] at hpending; cases hpending
  · exact hback

/-- While the failure waits for room the endpoint says that it accepts, though no accept is
    pending. -/
theorem accepting_while_failure_waits :
    let e := ((start .server false singlePlace).after clogging).endpoint
    e.isClosed = false ∧ e.receiverGone = false ∧ e.waits = true ∧ e.waitsForRoom = true ∧
      e.awaitsAccept = false ∧ e.state = .accepting := by
  decide

end Scene

end LocalEndpoint
