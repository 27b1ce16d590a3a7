import LocalEndpoint.Proofs.Scene.Change
import LocalEndpoint.Rehearsal.Basic
import Mathlib.Data.List.Induction

/-! Listening states and the accept loop. A loop is there exactly while the state of an open
    endpoint is a listening one, but that says only that it was started: a loop that finds the
    receiving end dropped stops, and leaves the state as it was. That is the one way in which the
    loop of an open endpoint ends (`ending_iff`), and from then on the endpoint counts as listening,
    refuses to listen and never accepts again, until it is closed. -/

namespace LocalEndpoint

theorem Occurrence.not_mem_of_not_byLoop {C : Type} {o : Occurrence C} {os : List (Occurrence C)}
    (hos : ∀ o ∈ os, o.byLoop = false) (ho : o.byLoop = true) : o ∉ os := by
  intro hm
  rw [hos o hm] at ho
  cases ho

namespace Endpoint

variable {C : Type}

/-- Whether a loop has been started and has not ended. -/
def running (e : Endpoint C) : Bool := e.loop.isSome && !e.loopEnded

/-- Whether a loop has been started and has ended, or will with its next piece of work. -/
def ending (e : Endpoint C) : Bool := e.loop.any (·.station.ends)

theorem loopEnded_of_loop {e : Endpoint C} {l : AcceptLoop C} (hl : e.loop = some l) :
    e.loopEnded = true ↔ l.station = .stopped := by
  obtain ⟨b, s⟩ := l
  rw [loopEnded, hl]
  cases s <;> simp

theorem loopEnded_congr {e f : Endpoint C} (hl : f.loop = e.loop) : f.loopEnded = e.loopEnded := by
  rw [loopEnded, hl, loopEnded]

theorem ending_of_loop {e : Endpoint C} {l : AcceptLoop C} (hl : e.loop = some l) :
    e.ending = l.station.ends := by rw [ending, hl]; rfl

theorem ending_congr {e f : Endpoint C} (hl : f.loop = e.loop) : f.ending = e.ending := by
  rw [ending, hl, ending]

theorem loop_isSome_of_loopEnded {e : Endpoint C} (h : e.loopEnded = true) :
    e.loop.isSome = true := by
  cases hl : e.loop with
  | none => rw [loopEnded, hl] at h; cases h
  | some l => rfl

/-- Where a caller can come, a loop that is about to end has ended. -/
theorem ending_of_suspended {e : Endpoint C} (h : e.suspended = true) : e.ending = e.loopEnded := by
  cases hl : e.loop with
  | none => rw [ending, loopEnded, hl]; rfl
  | some l =>
    obtain ⟨b, s⟩ := l
    rw [suspended, hl] at h
    rw [ending, loopEnded, hl]
    cases s <;> first | rfl | cases h

/-! ### One move -/

/-- A loop ends with the move that says so, and is ended for good. -/
theorem Change.loopEnded_iff [Located C] {e f : Endpoint C} {m : Move C} {os : List (Occurrence C)}
    (h : Change e m f os) (hs : e.Sound) :
    f.loopEnded = true ↔ e.loopEnded = true ∨ .loopStopped ∈ os := by
  have hkeep (hl : f.loop = e.loop) (hos : ∀ o ∈ os, o.byLoop = false) :
      f.loopEnded = true ↔ e.loopEnded = true ∨ .loopStopped ∈ os := by
    have hno : .loopStopped ∉ os := Occurrence.not_mem_of_not_byLoop hos rfl
    rw [loopEnded_congr hl, or_iff_left hno]
  cases h with
  | aside _ hb hos => exact hkeep hb.loop (Occurrence.byLoop_of_not_onAcceptPath hos)
  | receiving _ hos => exact hkeep rfl hos
  | refusal _ hos | closing _ hos =>
    exact hkeep rfl (Occurrence.byLoop_of_not_onAcceptPath hos)
  | opening _ hc hl hos =>
    -- There was no loop before, and the new one has just started.
    have hnone : e.loop = none := by simpa [hl] using hs.loop hc
    have hno : .loopStopped ∉ os :=
      Occurrence.not_mem_of_not_byLoop (Occurrence.byLoop_of_not_onAcceptPath hos) rfl
    have he : e.loopEnded = false := by rw [loopEnded, hnone]
    rw [he, or_iff_left hno]
    rfl
  | @piece l s _ _ hl hst hp =>
    rw [loopEnded_of_loop hl, hst]
    cases hp with
    | stop => exact ⟨fun _ => .inr List.mem_cons_self, fun _ => rfl⟩
    | await | rest => rw [loopEnded_of_loop hl, hst]; simp
    | leave hleaves =>
      have hne : s ≠ .stopped := by rintro rfl; cases hleaves
      simp [loopEnded, moveTo, hne]
    | discard hdiscards =>
      have hne : s ≠ .stopped := by rintro rfl; cases hdiscards
      simp [loopEnded, moveTo, hne]
    | @enter _ retries | @send _ retries =>
      cases retries <;> simp [loopEnded, moveTo, Station.afterSending]
    | _ => simp [loopEnded, moveTo]
  | answered hl hst | rung hl hst => rw [loopEnded_of_loop hl, hst]; simp [loopEnded, moveTo]
  | _ => exact hkeep rfl (List.forall_mem_nil _)

/-- The loop of an endpoint that stays open ends only because it finds the receiving end gone. -/
theorem Change.ending_iff [Located C] {e f : Endpoint C} {m : Move C} {os : List (Occurrence C)}
    (h : Change e m f os) (hs : e.Sound) (ho : f.isClosed = false) :
    f.ending = true ↔ e.ending = true ∨ .receiverGone ∈ os := by
  have hkeep (hl : f.loop = e.loop) (hos : ∀ o ∈ os, o.byLoop = false) :
      f.ending = true ↔ e.ending = true ∨ .receiverGone ∈ os := by
    have hno : .receiverGone ∉ os := Occurrence.not_mem_of_not_byLoop hos rfl
    rw [ending_congr hl, or_iff_left hno]
  have hopen (hc : e.isClosed = true) : False := by rw [h.isClosed hc] at ho; cases ho
  cases h with
  | aside _ hb hos => exact hkeep hb.loop (Occurrence.byLoop_of_not_onAcceptPath hos)
  | receiving _ hos => exact hkeep rfl hos
  | refusal _ hos => exact hkeep rfl (Occurrence.byLoop_of_not_onAcceptPath hos)
  | closing => cases ho
  | opening _ hc hl hos =>
    have hnone : e.loop = none := by simpa [hl] using hs.loop hc
    have hno : .receiverGone ∉ os :=
      Occurrence.not_mem_of_not_byLoop (Occurrence.byLoop_of_not_onAcceptPath hos) rfl
    have he : e.ending = false := by rw [ending, hnone]; rfl
    rw [he, or_iff_left hno]
    rfl
  | @piece l s _ _ hl hst hp =>
    rw [ending_of_loop hl, hst]
    cases hp with
    | leave _ hc | discard _ hc => exact (hopen hc).elim
    | forsake => exact ⟨fun _ => .inr List.mem_cons_self, fun _ => rfl⟩
    | await | rest => rw [ending_of_loop hl, hst]; simp
    | @enter _ retries | @send _ retries =>
      cases retries <;> simp [ending, moveTo, Station.afterSending, Station.ends]
    | _ => simp [ending, moveTo, Station.ends]
  | answered hl hst | rung hl hst =>
    rw [ending_of_loop hl, hst]
    simp [ending, moveTo, Station.ends]
  | _ => exact hkeep rfl (List.forall_mem_nil _)

/-- Nothing makes a loop do anything once it has ended. -/
theorem Change.silent_of_loopEnded [Located C] {e f : Endpoint C} {m : Move C}
    {os : List (Occurrence C)} (h : Change e m f os) (he : e.loopEnded = true) :
    ∀ o ∈ os, o.byLoop = false := by
  cases h with
  | aside _ _ hos | refusal _ hos | closing _ hos =>
    exact Occurrence.byLoop_of_not_onAcceptPath hos
  | opening _ _ _ hos => exact Occurrence.byLoop_of_not_onAcceptPath hos
  | receiving _ hos => exact hos
  | piece hl hst hp =>
    rw [loopEnded_of_loop hl, hst] at he
    subst he
    cases hp with
    | leave hs => cases hs
    | discard hs => cases hs
    | rest => exact List.forall_mem_nil _
  | _ => exact List.forall_mem_nil _

theorem listen_of_isListening {e : Endpoint C} (h : e.state.isListening = true) (requested : Size)
    (answer : Except Failure String) :
    e.listen true requested answer = (e, .ok .invalidArgument, [.alreadyListening]) := by
  have hc : e.isClosed = false := isClosed_of_isListening h
  simp [listen, listenTarget, hc, h]

end Endpoint

namespace Scene

variable {C : Type} [Located C]

/-! ### Runs -/

theorem loopEnded_iff (role : Role) (ipc : Bool) (config : Config) (ms : List (Move C)) :
    ((start role ipc config).after ms).endpoint.loopEnded = true ↔
      .loopStopped ∈ (start role ipc config).history ms := by
  induction ms using List.reverseRecOn with
  | nil => exact ⟨nofun, nofun⟩
  | append_singleton ms m ih =>
    have hs := sound_after role ipc config ms (C := C)
    rw [Runs.concat after, history_concat, List.mem_append, ← ih]
    exact (((start role ipc config).after ms).change_step m).loopEnded_iff hs

theorem ending_iff (role : Role) (ipc : Bool) (config : Config) (ms : List (Move C))
    (ho : ((start role ipc config).after ms).endpoint.isClosed = false) :
    ((start role ipc config).after ms).endpoint.ending = true ↔
      .receiverGone ∈ (start role ipc config).history ms := by
  induction ms using List.reverseRecOn with
  | nil => exact ⟨nofun, nofun⟩
  | append_singleton ms m ih =>
    have hs := sound_after role ipc config ms (C := C)
    have ho' := (start role ipc config).isClosed_earlier (List.prefix_append ms [m]) ho
    rw [Runs.concat after] at ho ⊢
    rw [history_concat, List.mem_append, ← ih ho']
    exact (((start role ipc config).after ms).change_step m).ending_iff hs ho

theorem silent_of_loopEnded (s : Scene C) (ms : List (Move C)) (hs : s.endpoint.Sound)
    (he : s.endpoint.loopEnded = true) :
    (s.after ms).endpoint.loopEnded = true ∧ ∀ o ∈ s.history ms, o.byLoop = false := by
  induction ms generalizing s with
  | nil => exact ⟨he, List.forall_mem_nil _⟩
  | cons m ms ih =>
    have hc := s.change_step m
    obtain ⟨hend, hrest⟩ := ih (s.next m) (s.sound_next m hs) ((hc.loopEnded_iff hs).mpr (.inl he))
    refine ⟨hend, ?_⟩
    intro o ho
    rw [history, gather] at ho
    rcases List.mem_append.mp ho with ho | ho
    · exact hc.silent_of_loopEnded he o ho
    · exact hrest o ho

/-- What the listening states tell about the loop. In every run, as long as the endpoint is open,
    its state is a listening one exactly if a loop has been started. It tells that the loop still
    runs exactly until the loop stops; and the loop stops exactly if it finds the receiving end
    dropped. From then on until the close the endpoint goes on as a listening one: no loop does
    anything, and every `listen` is refused because the endpoint is already listening. -/
theorem listening_iff_loop_started (role : Role) (ipc : Bool) (config : Config)
    (ms : List (Move C)) :
    let s := (start role ipc config).after ms
    let past := (start role ipc config).history ms
    s.endpoint.isClosed = false →
      (s.endpoint.state.isListening = true ↔ s.endpoint.loop.isSome = true) ∧
      ((s.endpoint.state.isListening = true ↔ s.endpoint.running = true) ↔ .loopStopped ∉ past) ∧
      (.loopStopped ∈ past → .receiverGone ∈ past) ∧
      (s.endpoint.suspended = true → .receiverGone ∈ past → .loopStopped ∈ past) ∧
      (.loopStopped ∈ past → ∀ ns, (s.after ns).endpoint.isClosed = false →
        (s.after ns).endpoint.state.isListening = true ∧
        (∀ o ∈ s.history ns, o.byLoop = false) ∧
        ∀ requested answer, (s.after ns).endpoint.listen true requested answer =
          ((s.after ns).endpoint, .ok .invalidArgument, [.alreadyListening])) := by
  intro s past ho
  have hs : s.endpoint.Sound := sound_after role ipc config ms
  have hstarted : s.endpoint.loop.isSome = s.endpoint.state.isListening := hs.loop ho
  have hended : s.endpoint.loopEnded = true ↔ .loopStopped ∈ past :=
    loopEnded_iff role ipc config ms
  have hending : s.endpoint.ending = true ↔ .receiverGone ∈ past := ending_iff role ipc config ms ho
  refine ⟨by rw [hstarted], ?_, ?_, ?_, ?_⟩
  · rw [← hended, Endpoint.running, ← hstarted]
    cases hl : s.endpoint.loopEnded with
    | false => simp
    | true => simp [Endpoint.loop_isSome_of_loopEnded hl]
  · intro hstop
    have he : s.endpoint.loopEnded = true := hended.mpr hstop
    obtain ⟨l, hl⟩ := Option.isSome_iff_exists.mp (Endpoint.loop_isSome_of_loopEnded he)
    rw [← hending, Endpoint.ending_of_loop hl, (Endpoint.loopEnded_of_loop hl).mp he]
    rfl
  · intro hsuspended hgone
    rwa [← hended, ← Endpoint.ending_of_suspended hsuspended, hending]
  · intro hstop ns hopen
    obtain ⟨hend, hsilent⟩ := s.silent_of_loopEnded ns hs (hended.mpr hstop)
    have hsn : (s.after ns).endpoint.Sound :=
      Runs.induction after (P := fun t => t.endpoint.Sound) hs sound_next ns
    have hl : (s.after ns).endpoint.state.isListening = true := by
      rw [← hsn.loop hopen]
      exact Endpoint.loop_isSome_of_loopEnded hend
    exact ⟨hl, hsilent, Endpoint.listen_of_isListening hl⟩

/-- A run that leaves an accept pending. -/
def awaiting : List (Move Link) :=
  [.bind "/run/app.sock", .listen true 4 (.ok "resolved:/run/app.sock"), .takeReceiver, .work,
    .work, .work]

theorem listening_iff_loop_started_of_running :
    ((start .server false {}).after awaiting).endpoint.isClosed = false ∧
      ((start .server false {}).after awaiting).endpoint.state.isListening = true ∧
      ((start .server false {}).after awaiting).endpoint.loop.isSome = true :=
  have hopen : ((start .server false {}).after awaiting).endpoint.isClosed = false := rfl
  have hloop : ((start .server false {}).after awaiting).endpoint.loop.isSome = true := rfl
  ⟨hopen, (listening_iff_loop_started .server false {} awaiting hopen).1.mpr hloop, hloop⟩

/-- The consumer drops the receiving end, and an accept fails: the loop ends, and the endpoint goes
    on awaiting a connection. -/
theorem accepting_without_loop :
    let e := ((start .server false {}).after (awaiting ++
      [.dropReceiver,
        .acceptEnds (.error (.io ⟨.connectionAborted, "scripted ConnectionAborted"⟩)), .work, .work,
        .work, .work])).endpoint
    e.isClosed = false ∧ e.state = .accepting ∧ e.state.isListening = true ∧ e.running = false ∧
      (e.listen true 4 (.ok "resolved:/run/app.sock")).2 =
        (.ok .invalidArgument, [.alreadyListening]) :=
  ⟨rfl, rfl, rfl, rfl, rfl⟩

end Scene

end LocalEndpoint
