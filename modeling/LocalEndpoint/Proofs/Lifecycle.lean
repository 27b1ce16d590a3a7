import LocalEndpoint.Proofs.Scene.Change

/-! What callers and accept loop share behind one lock (`Shared`), as a whole: which combinations of
    its fields a run can show (`Shared.WellFormed`), and where the lifecycle can go from each point
    (`Lifecycle.Leads`).

        idle ─▶ bound ─▶ listening ◀─▶ accepting ◀─▶ backoff        anywhere ─▶ closed

    A closed endpoint has nothing left in it but its settings (`Sound.shared_eq_of_isClosed`), so
    whatever comes late, an accept, a delay or a connect, finds nothing to change. -/

namespace LocalEndpoint

/-- Where an endpoint that stands at the first point can stand after one move, unless it stays. -/
inductive Lifecycle.Leads : Lifecycle → Lifecycle → Prop
  | bind : Leads .idle .bound
  | listen : Leads .bound .listening
  | cycle {s t : Lifecycle} (hs : s.isListening = true) (ht : t.isListening = true) : Leads s t
  | close {s : Lifecycle} : Leads s .closed

/-- What callers and accept loop share. -/
@[ext]
structure Shared (C : Type) where
  state : Lifecycle
  address : Option String
  backlog : Option Size
  pendingInstances : Size
  occupancy : Occupancy
  retry : Retry
  listener : Bool
  connection : Option (Handle C)
  /-- Whether the receiving end waits to be taken. -/
  incoming : Bool

/-- The fields agree with the lifecycle. -/
structure Shared.WellFormed {C : Type} (s : Shared C) : Prop where
  listener : s.listener = s.state.isListening
  backlog : s.backlog.isSome = s.state.isListening
  address : s.state.isListening = true → s.address.isSome = true
  idle : s.state = .idle → s.address = none ∧ s.connection = none
  incoming : s.incoming = true → s.state.isListening = true
  counted : s.occupancy.count ≠ 0 → s.state.isListening = true
  delayed : s.retry.current.isSome = true → s.state.isListening = true
  closed : s.state = .closed →
    s.address = none ∧ s.backlog = none ∧ s.listener = false ∧ s.connection = none ∧
      s.incoming = false ∧ s.retry.current = none ∧ s.occupancy.count = 0

namespace Endpoint

variable {C : Type}

def shared (e : Endpoint C) : Shared C where
  state := e.state
  address := e.address
  backlog := e.backlog
  pendingInstances := e.pendingInstances
  occupancy := e.occupancy
  retry := e.retry
  listener := e.holdsListener
  connection := e.connection
  incoming := e.channel.any (·.custody == .stored)

theorem isClosed_iff {e : Endpoint C} : e.isClosed = true ↔ e.state = .closed := by
  rw [isClosed]
  cases e.state <;> simp [Lifecycle.isClosed]

namespace Sound

variable {e f : Endpoint C}

theorem incoming_eq_false (h : e.Sound) (hn : e.state.isListening = false) :
    e.shared.incoming = false := by
  obtain ⟨-, -, hkept⟩ := h.vacant hn
  cases hch : e.channel with
  | none => simp [shared, hch]
  | some ch => simpa [shared, hch] using hkept ch hch

/-- A closed endpoint has nothing left in it but its settings. -/
theorem shared_eq_of_isClosed (h : e.Sound) (hc : e.isClosed = true) :
    e.shared = ⟨.closed, none, none, e.pendingInstances, {}, ⟨e.retry.timing, none⟩, false, none,
      false⟩ := by
  have hn : e.state.isListening = false := isListening_of_isClosed hc
  obtain ⟨hcount, hdelay, -⟩ := h.vacant hn
  obtain ⟨haddress, hconnection⟩ := h.closed hc
  have hretry : e.retry = ⟨e.retry.timing, none⟩ := by rw [← hdelay]
  have hbacklog : e.backlog = none := by rw [h.backlog, hn]; rfl
  exact Shared.ext (isClosed_iff.mp hc) haddress hbacklog rfl hcount hretry
    (h.listener.trans hn) hconnection (h.incoming_eq_false hn)

/-- Closed endpoints of the same timing share the same, but for the pending instances. -/
theorem shared_eq_of_timing_eq (h : e.Sound) (h' : f.Sound) (hc : e.isClosed = true)
    (hc' : f.isClosed = true) (ht : f.retry.timing = e.retry.timing) :
    f.shared = { e.shared with pendingInstances := f.pendingInstances } := by
  rw [h'.shared_eq_of_isClosed hc', h.shared_eq_of_isClosed hc, ht]

theorem wellFormed (h : e.Sound) : e.shared.WellFormed where
  listener := h.listener
  backlog := by
    change e.backlog.isSome = e.state.isListening
    cases hl : e.state.isListening with
    | false =>
      rw [h.backlog, hl]
      rfl
    | true =>
      have hloop : e.loop.isSome = true := (h.loop (isClosed_of_isListening hl)).trans hl
      rw [h.backlog, hl, if_pos rfl, Option.isSome_map, hloop]
  address := h.address
  idle := h.idle
  incoming := by
    intro hstored
    refine Bool.of_not_eq_false ?_
    intro hn
    rw [h.incoming_eq_false hn] at hstored
    cases hstored
  counted := by
    intro hcount
    refine Bool.of_not_eq_false ?_
    intro hn
    have hempty : e.shared.occupancy = {} := (h.vacant hn).1
    rw [hempty] at hcount
    exact hcount rfl
  delayed := by
    intro hdelay
    refine Bool.of_not_eq_false ?_
    intro hn
    have hnone : e.shared.retry.current = none := (h.vacant hn).2.1
    rw [hnone] at hdelay
    cases hdelay
  closed := by
    intro hc
    rw [h.shared_eq_of_isClosed (isClosed_iff.mpr hc)]
    exact ⟨rfl, rfl, rfl, rfl, rfl, rfl, rfl⟩

end Sound

/-! ### One move -/

theorem address_isSome_of_listen_ok {e : Endpoint C} {inRuntime : Bool} {requested : Size}
    {answer : Except Failure String} (h : (e.listen inRuntime requested answer).2.1 = .ok .ok) :
    e.address.isSome = true := by
  cases ha : e.address with
  | some address => rfl
  | none =>
    have hr : ∃ r, e.listenTarget inRuntime requested = .error r := by
      rw [listenTarget, ha]
      split; · exact ⟨_, rfl⟩
      split; · exact ⟨_, rfl⟩
      split <;> exact ⟨_, rfl⟩
    obtain ⟨r, hr⟩ := hr
    cases r <;> simp [listen, hr] at h

/-- The timing is that of the configuration for good. -/
theorem Change.timing_eq [Located C] {e f : Endpoint C} {m : Move C} {os : List (Occurrence C)}
    (h : Change e m f os) : f.retry.timing = e.retry.timing := by
  cases h with
  | aside _ hb => rw [hb.retry]
  | piece _ _ hp => cases hp <;> rfl
  | _ => rfl

theorem bind_state (e : Endpoint C) (name : String) :
    (e.bind name).1.state = e.state ∨ e.state = .idle ∧ (e.bind name).1.state = .bound := by
  rw [bind]
  split
  · exact .inl rfl
  · by_cases hi : e.state = .idle
    · exact .inr ⟨hi, if_pos hi⟩
    · exact .inl (if_neg hi)

theorem finishConnect_state [Located C] (e : Endpoint C) (a : Attempt)
    (outcome : Except Failure C) :
    (e.finishConnect a outcome).1.state = e.state ∨
      e.state = .idle ∧ (e.finishConnect a outcome).1.state = .bound := by
  cases outcome with
  | error f => exact .inl rfl
  | ok c =>
    rw [finishConnect]
    split
    · exact .inl rfl
    · by_cases hi : e.state = .idle
      · exact .inr ⟨hi, if_pos hi⟩
      · exact .inl (if_neg hi)

/-- The loop of an open endpoint goes from one listening state to another; a closed one stays. -/
theorem Piece.state_eq_or_isListening [Located C] {e f : Endpoint C} {l : AcceptLoop C}
    {s : Station C} {os : List (Occurrence C)} (h : Piece e l s f os) :
    f.state = e.state ∨ e.isClosed = false ∧ f.state.isListening = true := by
  cases h with
  | cycle hc | succeed hc | recede hc => exact .inr ⟨hc, rfl⟩
  | _ => exact .inl rfl

end Endpoint

namespace Scene

variable {C : Type} [Located C]

theorem state_next_of_aside (s : Scene C) {m : Move C} (hm : m.aside = true) :
    (s.next m).endpoint.state = s.endpoint.state ∨
      s.endpoint.state = .idle ∧ (s.next m).endpoint.state = .bound := by
  cases m with
  | bind name => exact s.endpoint.bind_state name
  | connect a panics => rw [next, step, connect]; split <;> exact .inl rfl
  | connectEnds i outcome panics =>
    rw [next, step, connectEnds]
    split
    · exact .inl rfl
    · exact s.endpoint.finishConnect_state _ outcome
  | setPendingInstances | fchmod | ref | unref | takeConnection => exact .inl rfl
  | _ => cases hm

/-- A move leaves the lifecycle where it is, or leads it on. -/
theorem leads_next (s : Scene C) (m : Move C) (hs : s.endpoint.Sound) :
    (s.next m).endpoint.state = s.endpoint.state ∨
      s.endpoint.state.Leads (s.next m).endpoint.state := by
  by_cases ha : m.aside = true
  · rcases s.state_next_of_aside ha with hsame | ⟨hi, hb⟩
    · exact .inl hsame
    · rw [hi, hb]
      exact .inr .bind
  have hc := s.change_step m
  generalize (s.next m).endpoint = f, (s.step m).2 = os at hc
  cases hc with
  | aside hm => exact absurd hm ha
  | opening hr hc hl =>
    -- An idle endpoint has no address to listen at, so this one is bound.
    have haddress := Endpoint.address_isSome_of_listen_ok hr
    have hidle : s.endpoint.state ≠ .idle := by
      intro hi
      rw [(hs.idle hi).1] at haddress
      cases haddress
    have hbound : s.endpoint.state = .bound := by
      rw [Endpoint.isClosed] at hc
      revert hc hl hidle
      cases s.endpoint.state <;> simp [Lifecycle.isClosed, Lifecycle.isListening]
    rw [hbound]
    exact .inr .listen
  | closing => exact .inr .close
  | piece hl _ hp =>
    rcases hp.state_eq_or_isListening with hsame | ⟨hc, hf⟩
    · exact .inl hsame
    · exact .inr (.cycle (hs.listening_of_loop hl hc) hf)
  | _ => exact .inl rfl

/-- Once closed, a move changes nothing that is shared but the number of pending instances. -/
theorem shared_next_of_isClosed (s : Scene C) (m : Move C) (hs : s.endpoint.Sound)
    (hc : s.endpoint.isClosed = true) :
    (s.next m).endpoint.isClosed = true ∧ (s.next m).endpoint.shared =
      { s.endpoint.shared with pendingInstances := (s.next m).endpoint.pendingInstances } := by
  have hm := s.change_step m
  have hc' : (s.next m).endpoint.isClosed = true := hm.isClosed hc
  exact ⟨hc', hs.shared_eq_of_timing_eq (s.sound_next m hs) hc hc' hm.timing_eq⟩

theorem shared_after_of_isClosed (s : Scene C) (ms : List (Move C)) (hs : s.endpoint.Sound)
    (hc : s.endpoint.isClosed = true) :
    (s.after ms).endpoint.shared =
      { s.endpoint.shared with pendingInstances := (s.after ms).endpoint.pendingInstances } := by
  induction ms generalizing s with
  | nil => rfl
  | cons m ms ih =>
    obtain ⟨hc', hm⟩ := s.shared_next_of_isClosed m hs hc
    rw [Runs.cons after, ih (s.next m) (s.sound_next m hs) hc', hm]

/-- The shared state. After every run of a fresh endpoint its fields agree with the lifecycle; every
    further move leaves the lifecycle where it is or leads it on; and once the endpoint is closed,
    nothing in any further run changes anything shared but the number of pending instances. -/
theorem shared_state_of_every_run (role : Role) (ipc : Bool) (config : Config)
    (ms : List (Move C)) :
    let s := (start role ipc config).after ms
    s.endpoint.shared.WellFormed ∧
    (∀ m, (s.next m).endpoint.shared.state = s.endpoint.shared.state ∨
      s.endpoint.shared.state.Leads (s.next m).endpoint.shared.state) ∧
    (s.endpoint.shared.state = .closed → ∀ ns, (s.after ns).endpoint.shared =
      { s.endpoint.shared with pendingInstances := (s.after ns).endpoint.pendingInstances }) := by
  intro s
  have hs : s.endpoint.Sound := sound_after role ipc config ms
  refine ⟨hs.wellFormed, ?_, ?_⟩
  · intro m
    exact s.leads_next m hs
  · intro hc ns
    exact s.shared_after_of_isClosed ns hs (Endpoint.isClosed_iff.mpr hc)

end Scene

end LocalEndpoint
