import LocalEndpoint.Proofs.Scene.Basic
import LocalEndpoint.Proofs.Scene.Piece

/-! What holds of an endpoint at every moment of its life. `Sound` ties the other fields to the
    lifecycle: who has a listener is listening, who is listening has an address, a backlog and a
    loop, and who is closed has none of what a close takes away. `sound_after` says that every run
    of a fresh endpoint keeps it. -/

namespace LocalEndpoint

namespace Endpoint

variable {C : Type}

/-- The lifecycle and the fields that follow it. -/
structure Sound (e : Endpoint C) : Prop where
  /-- A loop and its channel come into being together. -/
  channel : e.channel.isSome = e.loop.isSome
  loop : e.isClosed = false → e.loop.isSome = e.state.isListening
  listener : e.holdsListener = e.state.isListening
  backlog : e.backlog = if e.state.isListening then e.loop.map (·.backlog) else none
  address : e.state.isListening = true → e.address.isSome = true
  idle : e.state = .idle → e.address = none ∧ e.connection = none
  /-- Nobody is counted, no delay is current, and the receiving end is not kept. -/
  vacant : e.state.isListening = false →
    e.occupancy = {} ∧ e.retry.current = none ∧ ∀ ch ∈ e.channel, ch.custody ≠ .stored
  closed : e.isClosed = true → e.address = none ∧ e.connection = none

theorem isListening_of_isClosed {e : Endpoint C} (h : e.isClosed = true) :
    e.state.isListening = false := by
  revert h
  rw [isClosed]
  cases e.state <;> simp [Lifecycle.isClosed, Lifecycle.isListening]

theorem isClosed_of_isListening {e : Endpoint C} (h : e.state.isListening = true) :
    e.isClosed = false := by
  cases hc : e.isClosed with
  | false => rfl
  | true => rw [isListening_of_isClosed hc] at h; cases h

theorem sound_create (role : Role) (ipc : Bool) (config : Config) :
    (create role ipc config : Endpoint C).Sound := by
  constructor <;> simp [create, Lifecycle.isListening, isClosed, Lifecycle.isClosed, Retry.ofTiming]

theorem close_fst (e : Endpoint C) (answer : Option Failure) :
    (e.close answer).1 = if e.isClosed then e else e.shut := by
  cases hc : e.isClosed <;> simp [close, hc]

/-! ### Listening -/

theorem listenTarget_eq_ok {e : Endpoint C} {inRuntime : Bool} {requested : Size}
    {target : String × Size} (h : e.listenTarget inRuntime requested = .ok target) :
    e.isClosed = false ∧ e.state.isListening = false ∧
      target.2 = e.config.effectiveBacklog requested e.pendingInstances := by
  unfold listenTarget at h
  split at h; · cases h
  next hc =>
    split at h; · cases h
    split at h; · cases h
    next hl =>
      split at h; · cases h
      cases h
      exact ⟨by simpa using hc, by simpa using hl, rfl⟩

theorem forListen_ne_ok (f : Failure) : Code.forListen f ≠ .report .ok := by
  unfold Code.forListen
  split <;> simp

/-- Only a provider that opened a listener, for an open endpoint without one, lets `listen` return
    OK. -/
theorem listen_of_ok {e : Endpoint C} {inRuntime : Bool} {requested : Size}
    {answer : Except Failure String} (h : (e.listen inRuntime requested answer).2.1 = .ok .ok) :
    e.isClosed = false ∧ e.state.isListening = false ∧
      ∃ address resolved, answer = .ok resolved ∧
        e.listen inRuntime requested answer =
          (e.startListening resolved (e.config.effectiveBacklog requested e.pendingInstances),
            .ok .ok,
            [.listenCalled address (e.config.effectiveBacklog requested e.pendingInstances),
              .listening address (e.config.effectiveBacklog requested e.pendingInstances)]) := by
  rw [listen] at h ⊢
  cases ht : e.listenTarget inRuntime requested with
  | error r => cases r <;> simp [ht] at h
  | ok target =>
    obtain ⟨hc, hl, hb⟩ := listenTarget_eq_ok ht
    obtain ⟨address, backlog⟩ := target
    cases hb
    cases answer with
    | ok resolved => exact ⟨hc, hl, address, resolved, rfl, rfl⟩
    | error f =>
      cases hv : Code.forListen f with
      | raise => simp [ht, hv] at h
      | report code => simp [ht, hv] at h; exact absurd (h ▸ hv) (forListen_ne_ok f)

/-- Any other call of `listen` leaves everything as it was. -/
theorem listen_of_ne_ok {e : Endpoint C} {inRuntime : Bool} {requested : Size}
    {answer : Except Failure String} (h : (e.listen inRuntime requested answer).2.1 ≠ .ok .ok) :
    (e.listen inRuntime requested answer).1 = e ∧
      ∀ o ∈ (e.listen inRuntime requested answer).2.2, o.onAcceptPath = false := by
  rw [listen] at h ⊢
  cases ht : e.listenTarget inRuntime requested with
  | error r => cases r <;> simp [Occurrence.onAcceptPath]
  | ok target =>
    cases answer with
    | ok resolved => simp [ht] at h
    | error f => cases hv : Code.forListen f <;> simp [hv, Occurrence.onAcceptPath]

namespace Sound

variable {e : Endpoint C}

/-! ### Callers -/

/-- An open endpoint may change its address and its connection, and is idle no more. -/
theorem revise (h : e.Sound) (hc : e.isClosed = false) {address : Option String}
    (ha : e.state.isListening = true → address.isSome = true) (connection : Option (Handle C))
    (tally : Tally) :
    Sound { e with address, connection, tally,
                   state := if e.state = .idle then .bound else e.state } := by
  by_cases hi : e.state = .idle
  · have hn : e.state.isListening = false := by rw [hi]; rfl
    simp only [if_pos hi]
    exact ⟨h.channel, fun _ => (h.loop hc).trans hn, h.listener.trans hn,
      h.backlog.trans (by rw [hn]; rfl), nofun, nofun, fun _ => h.vacant hn, nofun⟩
  · simp only [if_neg hi]
    exact ⟨h.channel, h.loop, h.listener, h.backlog, ha, fun hs => absurd hs hi, h.vacant,
      fun hcl => absurd (hc.symm.trans hcl) (by decide)⟩

theorem bind (h : e.Sound) (name : String) : (e.bind name).1.Sound := by
  rw [Endpoint.bind]
  split
  · exact h
  · next hr =>
    obtain ⟨hc, -⟩ : e.isClosed = false ∧ e.holdsListener = false := by simpa using hr
    exact h.revise hc (fun _ => rfl) e.connection e.tally

theorem attach (h : e.Sound) (hc : e.isClosed = false) (handle : Handle C) :
    (e.attach handle).Sound := by
  refine h.revise hc (fun hl => ?_) (some handle) (e.tally.bump .connects)
  simp [Option.isSome_or, h.address hl]

theorem bump (h : e.Sound) (c : Counter) : (e.bump c).Sound :=
  ⟨h.channel, h.loop, h.listener, h.backlog, h.address, h.idle, h.vacant, h.closed⟩

theorem finishConnect [Located C] (h : e.Sound) (a : Attempt) (outcome : Except Failure C) :
    (e.finishConnect a outcome).1.Sound := by
  cases outcome with
  | error f => exact h.bump .failedConnects
  | ok c =>
    rw [Endpoint.finishConnect]
    split
    · exact h
    · next hc => exact h.attach (by simpa using hc) (.wrap e.role c)

theorem takeConnection (h : e.Sound) : e.takeConnection.1.Sound :=
  ⟨h.channel, h.loop, h.listener, h.backlog, h.address, fun hi => ⟨(h.idle hi).1, rfl⟩, h.vacant,
    fun hc => ⟨(h.closed hc).1, rfl⟩⟩

theorem setPendingInstances (h : e.Sound) (n : Size) : (e.setPendingInstances n).Sound :=
  ⟨h.channel, h.loop, h.listener, h.backlog, h.address, h.idle, h.vacant, h.closed⟩

theorem release (h : e.Sound) : e.release.Sound := by
  refine ⟨h.channel, h.loop, h.listener, h.backlog, h.address, h.idle, fun hn => ?_, h.closed⟩
  obtain ⟨hcount, hrest⟩ := h.vacant hn
  exact ⟨by rw [Endpoint.release, hcount]; rfl, hrest⟩

theorem startListening (resolved : String) (backlog : Size) :
    (e.startListening resolved backlog).Sound :=
  ⟨rfl, fun _ => rfl, rfl, rfl, fun _ => rfl, nofun, nofun, nofun⟩

theorem listen (h : e.Sound) (inRuntime : Bool) (requested : Size)
    (answer : Except Failure String) : (e.listen inRuntime requested answer).1.Sound := by
  by_cases hr : (e.listen inRuntime requested answer).2.1 = .ok .ok
  · obtain ⟨-, -, _, _, -, hs⟩ := listen_of_ok hr
    rw [hs]; exact startListening ..
  · rw [(listen_of_ne_ok hr).1]; exact h

/-- The channel may change as long as nobody gives its receiving end back. -/
theorem onChannel (h : e.Sound) {f : Channel (Event C) → Channel (Event C)}
    (hf : ∀ ch, (f ch).custody = .stored → ch.custody = .stored) : (e.onChannel f).Sound := by
  refine ⟨?_, h.loop, h.listener, h.backlog, h.address, h.idle, fun hn => ?_, h.closed⟩
  · exact (Option.isSome_map ..).trans h.channel
  · obtain ⟨ho, hr, hk⟩ := h.vacant hn
    refine ⟨ho, hr, fun ch hch hst => ?_⟩
    obtain ⟨c, hc, rfl⟩ := Option.map_eq_some_iff.mp hch
    exact hk c hc (hf c hst)

theorem dropReceiver (h : e.Sound) : e.dropReceiver.Sound := h.onChannel nofun

theorem send (h : e.Sound) (event : Event C) : (e.onChannel (·.send event)).Sound :=
  h.onChannel fun _ => id

theorem hangUp (h : e.Sound) : (e.onChannel (·.hangUp)).Sound := h.onChannel fun _ => id

theorem takeReceiver (h : e.Sound) : e.takeReceiver.1.Sound := by
  rw [Endpoint.takeReceiver]
  split
  · next ch hch =>
    split
    · have hs := h.onChannel (f := fun ch => { ch with custody := .taken }) nofun
      rwa [Endpoint.onChannel, hch] at hs
    · exact h
  · exact h

theorem poll (h : e.Sound) : e.poll.2.Sound := by
  rw [Endpoint.poll]
  split
  · next ch hch =>
    have hs := h.onChannel (f := fun ch => ch.receive.2) fun ch hst => by
      revert hst
      rw [Channel.receive]
      split <;> exact id
    rwa [Endpoint.onChannel, hch] at hs
  · exact h

theorem receive (h : e.Sound) : e.receive.2.Sound := by
  rw [Endpoint.receive]
  split
  · exact h
  · exact h.poll

theorem shut (h : e.Sound) : e.shut.Sound := by
  refine ⟨?_, nofun, rfl, rfl, nofun, nofun, fun _ => ⟨rfl, rfl, fun ch hch => ?_⟩,
    fun _ => ⟨rfl, rfl⟩⟩
  · exact (Option.isSome_map ..).trans h.channel
  · obtain ⟨c, -, rfl⟩ := Option.map_eq_some_iff.mp hch
    by_cases hst : c.custody = .stored
    · simp [hst, Channel.abandon]
    · simp [hst]

theorem close (h : e.Sound) (answer : Option Failure) : (e.close answer).1.Sound := by
  rw [close_fst]
  split
  · exact h
  · exact h.shut

/-! ### The accept loop -/

theorem moveTo (h : e.Sound) {l : AcceptLoop C} (hl : e.loop = some l) (s : Station C) :
    (e.moveTo l s).Sound := by
  have hb := h.backlog
  have hch := h.channel
  have hlp := h.loop
  rw [hl] at hb hch hlp
  exact ⟨hch, hlp, h.listener, hb, h.address, h.idle, h.vacant, h.closed⟩

/-- A listening endpoint may go from one listening state to another, count and delay as well. -/
theorem relabel (h : e.Sound) (hl : e.state.isListening = true) (state : Lifecycle)
    (hs : state.isListening = true) (occupancy : Occupancy) (retry : Retry) (tally : Tally) :
    Sound { e with state, occupancy, retry, tally } := by
  have hl' := hs.trans hl.symm
  refine ⟨h.channel, fun _ => ?_, ?_, ?_, fun _ => h.address hl, fun hi => ?_, fun hn => ?_, ?_⟩
  · exact (h.loop (isClosed_of_isListening hl)).trans hl'.symm
  · exact h.listener.trans hl'.symm
  · exact h.backlog.trans (by rw [hl'])
  · subst hi; cases hs
  · exact absurd (hs.symm.trans hn) (by decide)
  · intro hc
    exact absurd (hs.symm.trans (isListening_of_isClosed hc)) (by decide)

theorem listening_of_loop (h : e.Sound) {l : AcceptLoop C} (hl : e.loop = some l)
    (hc : e.isClosed = false) : e.state.isListening = true := by
  rw [← h.loop hc, hl]
  rfl

theorem advance [Located C] (h : e.Sound) : e.advance.1.Sound := by
  cases hl : e.loop with
  | none => rw [advance_of_loop_eq_none hl]; exact h
  | some l =>
    have hp := piece_advance hl
    generalize l.station = s, e.advance.1 = f, e.advance.2 = os at hp
    cases hp with
    | await | rest => exact h
    | throttle | fail | count => exact (h.bump _).moveTo hl _
    | cycle hc =>
      exact (h.relabel (h.listening_of_loop hl hc) .accepting rfl _ _ _).moveTo hl _
    | succeed hc =>
      exact (h.relabel (h.listening_of_loop hl hc) .listening rfl _ _ _).moveTo hl _
    | recede hc =>
      exact (h.relabel (h.listening_of_loop hl hc) .backoff rfl _ _ _).moveTo hl _
    | enter hc =>
      have hs := h.listening_of_loop hl hc
      exact ((h.send _).relabel hs _ hs _ _ _).moveTo hl _
    | send => exact (h.send _).moveTo hl _
    | stop => exact h.hangUp.moveTo hl _
    | _ => exact h.moveTo hl _

theorem resolve (h : e.Sound) (outcome : Except Failure C) : (e.resolve outcome).Sound := by
  rw [Endpoint.resolve]
  split
  · next hl => exact h.moveTo hl _
  · exact h

theorem ring (h : e.Sound) : e.ring.Sound := by
  rw [Endpoint.ring]
  split
  · next hl => exact h.moveTo hl _
  · exact h

end Sound

end Endpoint

namespace Scene

variable {C : Type} [Located C]

/-! ### Runs -/

theorem sound_next (s : Scene C) (m : Move C) (h : s.endpoint.Sound) :
    (s.next m).endpoint.Sound := by
  cases m with
  | bind name => exact h.bind name
  | connect a panics => rw [next, step, connect]; split <;> exact h
  | connectEnds i outcome panics =>
    rw [next, step, connectEnds]
    split
    · exact h
    · exact h.finishConnect _ outcome
  | listen inRuntime requested answer => exact h.listen inRuntime requested answer
  | takeReceiver => exact h.takeReceiver
  | poll reader =>
    rw [next, step, poll]
    split
    · have hr := h.receive
      simp only
      split <;> first | exact hr | exact hr.dropReceiver
    · exact h
  | dropReceiver =>
    simp only [next, step, put]
    split
    · exact h.dropReceiver
    · exact h
  | release => exact h.release
  | setPendingInstances n => exact h.setPendingInstances n
  | fchmod | ref | unref => exact h
  | takeConnection => exact h.takeConnection
  | close answer => exact h.close answer
  | work => exact h.advance
  | acceptEnds outcome => exact h.resolve outcome
  | delayEnds => exact h.ring

/-- A fresh endpoint is sound after every run. -/
theorem sound_after (role : Role) (ipc : Bool) (config : Config) (ms : List (Move C)) :
    ((start role ipc config).after ms).endpoint.Sound :=
  Runs.induction after (P := fun s => s.endpoint.Sound) (Endpoint.sound_create role ipc config)
    sound_next ms

end Scene

end LocalEndpoint
