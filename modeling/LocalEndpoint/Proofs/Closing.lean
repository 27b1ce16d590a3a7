import LocalEndpoint.Proofs.Scene.Change
import LocalEndpoint.Rehearsal.Basic

/-! A close is a clean cut. Wherever the loop looks, it looks whether the endpoint is closed, except
    at two stations (`Station.heedless`) that no task stands at when a caller comes. So an endpoint
    closed by a caller is cut off (`Cut`): nothing gets in, nothing gets out, nothing is counted
    (`Occurrence.isTraffic`, `quiet_next`). All that the loop may still do is to take note of the
    one accept that was under way (`Station.owed`) and to stop. -/

namespace LocalEndpoint

/-- Whether the next piece of work shows, and is done without a look whether the endpoint is
    closed. -/
def Station.heedless {C : Type} : Station C → Bool
  | .calling | .counting _ => true
  | _ => false

/-- One where an accept is pending, or has an outcome that the loop has not taken note of yet. -/
def Station.owed {C : Type} : Station C → Nat
  | .accepting | .settling _ => 1
  | _ => 0

/-- Whether it shows that an endpoint accepts, counts, waits or delivers. -/
def Occurrence.isTraffic {C : Type} : Occurrence C → Bool
  | .throttled .. | .acceptCalled | .acceptFailed _ | .settled _ | .admitted _ | .sent _
  | .backedOff _ | .received _ | .invoked _ => true
  | _ => false

theorem Occurrence.isTraffic_of_not_onAcceptPath {C : Type} {o : Occurrence C}
    (h : o.onAcceptPath = false) : o.isTraffic = false := by
  cases o <;> first | rfl | cases h

theorem Station.heedless_of_suspended {C : Type} {s : Station C} (h : s.suspended = true) :
    s.heedless = false := by
  cases s <;> first | rfl | cases h

theorem Station.owed_le_one {C : Type} (s : Station C) : s.owed ≤ 1 := by
  cases s <;> simp [owed]

theorem Station.length_outcome?_le_owed {C : Type} (s : Station C) :
    s.outcome?.toList.length ≤ s.owed := by
  cases s <;> simp [outcome?, owed]

namespace Endpoint

variable {C : Type}

/-- How many accepts of the loop still have to end. -/
def owed (e : Endpoint C) : Nat := e.loop.elim 0 (·.station.owed)

/-- A closed endpoint whose loop heeds that. -/
structure Cut (e : Endpoint C) : Prop where
  closed : e.isClosed = true
  heeds : ∀ l ∈ e.loop, l.station.heedless = false

/-- What can happen while `e` becomes `f`, cut off, and the loop takes note of `n` outcomes. -/
structure Quiet (e f : Endpoint C) (os : List (Occurrence C)) (n : Nat) : Prop where
  cut : f.Cut
  silent : ∀ o ∈ os, o.isTraffic = false
  tally : ∀ c, c ≠ .failedConnects → f.tally.get c = e.tally.get c
  owed : n + f.owed ≤ e.owed
  pending : f.awaitsAccept = true → e.awaitsAccept = true

theorem owed_of_loop {e : Endpoint C} {l : AcceptLoop C} (hl : e.loop = some l) :
    e.owed = l.station.owed := by rw [owed, hl]; rfl

theorem owed_le_one (e : Endpoint C) : e.owed ≤ 1 := by
  cases hl : e.loop with
  | none => rw [owed, hl]; exact Nat.zero_le _
  | some l => rw [owed_of_loop hl]; exact l.station.owed_le_one

/-- A pending accept has to end. -/
theorem owed_of_awaitsAccept {e : Endpoint C} (h : e.awaitsAccept = true) : e.owed = 1 := by
  rw [awaitsAccept] at h
  split at h
  · next hl => rw [owed_of_loop hl]; rfl
  · cases h

theorem awaitsAccept_congr {e f : Endpoint C} (hl : f.loop = e.loop) :
    f.awaitsAccept = e.awaitsAccept := by rw [awaitsAccept, hl, awaitsAccept]

namespace Quiet

variable {e f g : Endpoint C} {os os' : List (Occurrence C)} {n n' : Nat}

theorem trans (h : Quiet e f os n) (h' : Quiet f g os' n') : Quiet e g (os ++ os') (n + n') := by
  refine ⟨h'.cut, fun o ho => ?_, fun c hc => (h'.tally c hc).trans (h.tally c hc), ?_,
    fun hp => h.pending (h'.pending hp)⟩
  · exact (List.mem_append.mp ho).elim (h.silent o) (h'.silent o)
  · have h₁ := h.owed
    have h₂ := h'.owed
    omega

/-- The loop stays where it is. -/
theorem keep (hf : f.Cut) (hl : f.loop = e.loop) (hos : ∀ o ∈ os, o.isTraffic = false)
    (ht : ∀ c, c ≠ .failedConnects → f.tally.get c = e.tally.get c) : Quiet e f os 0 := by
  refine ⟨hf, hos, ht, ?_, fun hp => awaitsAccept_congr hl ▸ hp⟩
  rw [Endpoint.owed, hl, Nat.zero_add]
  exact Nat.le_refl _

/-- The loop leaves its station, with whatever outcome it found there, for one without an accept. -/
theorem goOn {l : AcceptLoop C} {s s' : Station C} (he : e.isClosed = true) (hl : e.loop = some l)
    (hs : l.station = s) (hf : f.loop = some { l with station := s' })
    (hc : f.isClosed = e.isClosed) (ht : f.tally = e.tally) (hh : s'.heedless = false)
    (ho : s'.owed = 0) (hos : ∀ o ∈ os, o.isTraffic = false) :
    Quiet e f os s.outcome?.toList.length := by
  have hfo : f.owed = 0 := (owed_of_loop hf).trans ho
  refine ⟨⟨hc.trans he, fun m hm => ?_⟩, hos, fun c _ => by rw [ht], ?_, fun hp => ?_⟩
  · rw [hf] at hm; cases hm
    exact hh
  · rw [hfo, owed_of_loop hl, hs]
    exact s.length_outcome?_le_owed
  · rw [owed_of_awaitsAccept hp] at hfo; cases hfo

end Quiet

/-- A caller's close cuts the endpoint off, and shows nothing but itself. -/
theorem quiet_close {e : Endpoint C} (h : e.suspended = true) (answer : Option Failure) :
    Quiet e (e.close answer).1 (e.close answer).2 0 := by
  have hl : ∀ l ∈ e.loop, l.station.heedless = false := fun l hl => by
    rw [suspended, Option.all_eq_true] at h
    exact Station.heedless_of_suspended (h l hl)
  have hos : ∀ o ∈ (e.close answer).2, o.isTraffic = false := fun o ho =>
    Occurrence.isTraffic_of_not_onAcceptPath (e.onAcceptPath_close answer o ho)
  rw [close_fst]
  split
  · next hc => exact .keep ⟨hc, hl⟩ rfl hos fun _ _ => rfl
  · exact .keep ⟨rfl, hl⟩ rfl hos fun _ _ => rfl

/-- On a cut-off endpoint the loop does nothing but take note of its last accept and stop. -/
theorem Cut.piece [Located C] {e f : Endpoint C} {l : AcceptLoop C} {s : Station C}
    {os : List (Occurrence C)} (h : e.Cut) (hl : e.loop = some l) (hs : l.station = s)
    (hp : Piece e l s f os) : Quiet e f os s.outcome?.toList.length := by
  have hheed := h.heeds l hl
  have hopen (hc : e.isClosed = false) : False := by rw [h.closed] at hc; cases hc
  rw [hs] at hheed
  cases hp with
  | call | count => cases hheed
  | throttle hc | cycle hc | succeed hc | fail hc | offer hc | enter hc | send hc | recede hc
  | nap hc | resume hc => exact (hopen hc).elim
  | await | rest => exact .keep h rfl (List.forall_mem_nil _) fun _ _ => rfl
  | _ => exact .goOn h.closed hl hs rfl rfl rfl rfl rfl (by simp [Occurrence.isTraffic])

theorem napDelay?_of_isClosed {e : Endpoint C} (h : e.isClosed = true) : e.napDelay? = none := by
  rw [napDelay?]; split <;> simp [h]

theorem waitsForRoom_of_isClosed {e : Endpoint C} (h : e.isClosed = true) :
    e.waitsForRoom = false := by
  rw [waitsForRoom]; split <;> simp [h]

/-- Where the loop of a closed endpoint has nothing to do, it has ended or an accept is pending. -/
theorem loopEnded_or_awaitsAccept {e : Endpoint C} (h : e.isClosed = true) (hw : e.waits = true) :
    e.loop = none ∨ e.loopEnded = true ∨ e.awaitsAccept = true := by
  rw [waits, napDelay?_of_isClosed h, waitsForRoom_of_isClosed h] at hw
  simp only [Option.isNone_iff_eq_none, Bool.or_eq_true, Option.isSome_none, Bool.false_eq_true,
    or_false] at hw
  obtain (hnone | hawait) | hended := hw
  · exact .inl hnone
  · exact .inr (.inr hawait)
  · exact .inr (.inl hended)

end Endpoint

namespace Scene

variable {C : Type} [Located C]

open Endpoint (Cut Quiet)

/-- Every move leaves a cut-off endpoint quiet. -/
theorem quiet_next (s : Scene C) (m : Move C) (h : s.endpoint.Cut) :
    Quiet s.endpoint (s.next m).endpoint (s.step m).2 (s.takes m).length := by
  have hc := s.change_step m
  have hkeep : Quiet s.endpoint s.endpoint [] 0 :=
    .keep h rfl (List.forall_mem_nil _) fun _ _ => rfl
  have hopen (ho : s.endpoint.isClosed = false) : False := by rw [h.closed] at ho; cases ho
  generalize (s.next m).endpoint = f, (s.step m).2 = os at hc
  cases hc with
  | aside hm hb ho =>
    have hcut : f.Cut := ⟨hb.closed.trans h.closed, hb.loop ▸ h.heeds⟩
    rw [s.takes_of_ne_work (by rintro rfl; cases hm)]
    refine .keep hcut hb.loop (fun o hos => Occurrence.isTraffic_of_not_onAcceptPath (ho o hos))
      fun c hc => ?_
    by_cases hcon : c = .connects
    · rw [hcon]; exact hb.connects h.closed
    · exact hb.tally c hcon hc
  | receiving hm ho hr =>
    rw [s.takes_of_ne_work (by rintro rfl; cases hm)]
    refine .keep ⟨h.closed, h.heeds⟩ rfl (fun o hos => ?_) fun _ _ => rfl
    have hpath : o.onAcceptPath = false := by
      rw [Occurrence.onAcceptPath, ho o hos, hr h.closed o hos]; rfl
    exact Occurrence.isTraffic_of_not_onAcceptPath hpath
  | refusal _ ho =>
    exact .keep h rfl (fun o hos => Occurrence.isTraffic_of_not_onAcceptPath (ho o hos))
      fun _ _ => rfl
  | opening _ hc | closing hc => exact (hopen hc).elim
  | release => exact .keep ⟨h.closed, h.heeds⟩ rfl (List.forall_mem_nil _) fun _ _ => rfl
  | piece hl hs hp => simpa [takes, hl, hs] using h.piece hl hs hp
  | noLoop hl => simpa [takes, hl] using hkeep
  | @answered l _ hl hs =>
    refine ⟨⟨h.closed, fun m hm => by cases hm; rfl⟩, List.forall_mem_nil _, fun _ _ => rfl, ?_,
      fun hp => by cases hp⟩
    rw [Endpoint.owed_of_loop hl, hs]
    exact Nat.le_refl _
  | rung hl hs => exact .goOn h.closed hl hs rfl rfl rfl rfl rfl (List.forall_mem_nil _)
  | _ => exact hkeep

theorem quiet_after (s : Scene C) (ms : List (Move C)) (h : s.endpoint.Cut) :
    Quiet s.endpoint (s.after ms).endpoint (s.history ms) (gather next takes s ms).length := by
  induction ms generalizing s with
  | nil => exact .keep h rfl (List.forall_mem_nil _) fun _ _ => rfl
  | cons m ms ih =>
    have hm := s.quiet_next m h
    rw [gather, List.length_append]
    exact hm.trans (ih (s.next m) hm.cut)

/-- The same for a run that begins with a caller's close. -/
theorem quiet_of_close (s : Scene C) (answer : Option Failure) (ms : List (Move C))
    (h : s.endpoint.suspended = true) :
    Quiet s.endpoint (s.after (.close answer :: ms)).endpoint (s.history (.close answer :: ms))
      (gather next takes s (.close answer :: ms)).length := by
  have hc := Endpoint.quiet_close h answer
  have ht := hc.trans ((s.next (.close answer)).quiet_after ms hc.cut)
  rwa [Nat.zero_add] at ht

/-- A close is a clean cut. Where a caller closes an endpoint, whatever its loop waits for, nothing
    in the run from there on shows that the endpoint accepts, waits or delivers; whoever looks for
    an event finds the end; nobody is counted and no delay is current; no counter but that of failed
    connects changes; and at most one outcome is taken note of, that of an accept under way. Once it
    has run, the loop has ended or waits for that accept, and not for a delay or for room. -/
theorem close_is_clean_cut (role : Role) (ipc : Bool) (config : Config)
    (before after : List (Move C)) (answer : Option Failure)
    (h : ((start role ipc config).after before).endpoint.suspended = true) :
    let s := (start role ipc config).after before
    let cut := Move.close answer :: after
    let e := (s.after cut).endpoint
    (∀ o ∈ s.history cut, o.isTraffic = false) ∧
    e.receive.1 = .ended ∧ e.count = 0 ∧ e.currentBackoff = none ∧
    (∀ c, c ≠ .failedConnects → e.tally.get c = s.endpoint.tally.get c) ∧
    (gather next takes s cut).length ≤ s.endpoint.owed ∧ s.endpoint.owed ≤ 1 ∧
    e.run.1.napDelay? = none ∧ e.run.1.waitsForRoom = false ∧
    (e.run.1.loop = none ∨ e.run.1.loopEnded = true ∨
      e.run.1.awaitsAccept = true ∧ s.endpoint.awaitsAccept = true ∧
        gather next takes s cut = []) := by
  intro s cut e
  have hq : Quiet s.endpoint e (s.history cut) (gather next takes s cut).length :=
    s.quiet_of_close answer after h
  have hsound : e.Sound := by
    have hsa := sound_after role ipc config (before ++ cut) (C := C)
    rwa [Runs.append Scene.after] at hsa
  obtain ⟨hcount, hback, -⟩ := hsound.vacant (Endpoint.isListening_of_isClosed hq.cut.closed)
  -- The loop's run is a further part of the same run, so it is quiet as well.
  obtain ⟨n, hrun, -, hwaits⟩ := (s.after cut).exists_after_eq_run
  have hqr := s.quiet_of_close answer (after ++ List.replicate n .work) h
  rw [← List.cons_append, Runs.append Scene.after, gather_append Scene.after, List.length_append,
    hrun] at hqr
  have hcl : e.run.1.isClosed = true := hqr.cut.closed
  have hend : e.receive.1 = .ended := by rw [Endpoint.receive, if_pos hq.cut.closed]
  refine ⟨hq.silent, hend, by rw [Endpoint.count, hcount], hback, hq.tally,
    Nat.le_trans (Nat.le_add_right ..) hq.owed, s.endpoint.owed_le_one,
    Endpoint.napDelay?_of_isClosed hcl, Endpoint.waitsForRoom_of_isClosed hcl, ?_⟩
  rcases Endpoint.loopEnded_or_awaitsAccept hcl hwaits with hnone | hended | hawait
  · exact .inl hnone
  · exact .inr (.inl hended)
  -- The one accept is still to end, so none has.
  · have ho := hqr.owed
    have hone : e.run.1.owed = 1 := Endpoint.owed_of_awaitsAccept hawait
    have hle := s.endpoint.owed_le_one
    have hnil : (gather next takes s cut).length = 0 := by
      change (gather next takes s cut).length + _ + e.run.1.owed ≤ _ at ho
      omega
    exact .inr (.inr ⟨hawait, hqr.pending hawait, List.length_eq_zero_iff.mp hnil⟩)

/-- Settings under which the backlog is the number of pending instances. -/
def fixedBacklog : Config := { rule := .pendingInstances }

/-- A run that leaves an event in the channel and an accept pending. -/
def busy : List (Move Link) :=
  [.bind "a", .listen true 1 (.ok "a"), .takeReceiver, .work, .work, .work,
    .acceptEnds (.ok ⟨0, none⟩), .work, .work, .work, .work, .work, .work]

/-- The close itself may end the pending accept. -/
theorem close_is_clean_cut_of_busy :
    ((start .server false fixedBacklog).after busy).endpoint.suspended = true ∧
      ((start .server false fixedBacklog).after busy).endpoint.buffered = 1 ∧
      ∀ o ∈ ((start .server false fixedBacklog).after busy).history
        [.close none, .acceptEnds (.error .listenerClosed), .poll .direct, .work, .work],
        o.isTraffic = false := by
  have hs : ((start .server false fixedBacklog).after busy).endpoint.suspended = true := by decide
  exact ⟨hs, by decide, (close_is_clean_cut .server false fixedBacklog busy _ none hs).1⟩

end Scene

end LocalEndpoint
