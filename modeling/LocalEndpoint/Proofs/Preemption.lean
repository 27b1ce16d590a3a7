import LocalEndpoint.Proofs.Admission
import LocalEndpoint.Proofs.Closing
import LocalEndpoint.Proofs.Lifecycle
import LocalEndpoint.Proofs.Listening
import LocalEndpoint.Proofs.Scene.Crowd

/-! Closing while everything else goes on. A loop that a close catches between two looks at the lock
    may still do what it was about to do: begin an accept, take note of one outcome, or count one
    delay. Each such leak has its place in the loop's work, so what is left of it can be read off
    the station (`Station.left`), it is used up as it happens (`Winding`), and there is at most one
    of each kind. -/

namespace LocalEndpoint

/-- What a loop may still do after the close. -/
inductive Leak where
  /-- Begin an accept. -/
  | call
  /-- Have an accept answered. -/
  | answer
  /-- Take note of an outcome. -/
  | outcome
  /-- Count a delay. -/
  | pause
  deriving DecidableEq

namespace Occurrence

variable {C : Type}

@[simp] def isAcceptCall : Occurrence C → Bool
  | .acceptCalled => true
  | _ => false

@[simp] def isPause : Occurrence C → Bool
  | .backedOff _ => true
  | _ => false

@[simp] def isDiscard : Occurrence C → Bool
  | .discarded => true
  | _ => false

/-- Whether the loop of a closed endpoint may still do it. -/
@[simp] def lingers : Occurrence C → Bool
  | .loopStarted _ | .acceptCalled | .discarded | .receiverGone | .backedOff _
  | .loopStopped => true
  | _ => false

end Occurrence

/-- How much of each leak is left where a loop stands. -/
@[simp] def Station.left {C : Type} : Leak → Station C → Nat
  | .call, .calling => 1
  | .answer, .calling | .answer, .accepting => 1
  | .outcome, .calling | .outcome, .accepting | .outcome, .settling _ => 1
  | .pause, .counting _ => 1
  | _, _ => 0

/-- How many accepts are pending where a loop stands. -/
@[simp] def Station.pending {C : Type} : Station C → Nat
  | .accepting => 1
  | _ => 0

/-- How much of each leak has happened when a loop has done `os`, had these answers and taken note
    of these outcomes. -/
@[simp] def Leak.count {C : Type} (os : List (Occurrence C))
    (answers outcomes : List (Except Failure C)) : Leak → Nat
  | .call => os.countP Occurrence.isAcceptCall
  | .answer => answers.length
  | .outcome => outcomes.length
  | .pause => os.countP Occurrence.isPause

theorem Leak.count_append {C : Type} (os os' : List (Occurrence C))
    (as as' outs outs' : List (Except Failure C)) (k : Leak) :
    k.count (os ++ os') (as ++ as') (outs ++ outs') =
      k.count os as outs + k.count os' as' outs' := by
  cases k with
  | call | pause => exact List.countP_append
  | answer | outcome => exact List.length_append

namespace Endpoint

variable {C : Type}

/-- How much of each leak is left. -/
def left (e : Endpoint C) (k : Leak) : Nat := e.loop.elim 0 (·.station.left k)

/-- The answer that a move brings, if an accept is pending before it and not after it. -/
def answers (e f : Endpoint C) : Move C → List (Except Failure C)
  | .acceptEnds outcome => if e.awaitsAccept && !f.awaitsAccept then [outcome] else []
  | _ => []

/-- The outcome that the loop takes note of in a move. -/
def outcomes (e : Endpoint C) (m : Move C) : List (Except Failure C) := Scene.takes ⟨e, []⟩ m

theorem left_of_loop {e : Endpoint C} {l : AcceptLoop C} (hl : e.loop = some l) (k : Leak) :
    e.left k = l.station.left k := by rw [left, hl]; rfl

theorem left_le_one (e : Endpoint C) (k : Leak) : e.left k ≤ 1 := by
  cases hl : e.loop with
  | none => rw [left, hl]; exact Nat.zero_le _
  | some l =>
    rw [left_of_loop hl]
    cases k <;> cases l.station <;> simp [Station.left]

/-- A pending accept is the one that can still be answered, and no other begins. -/
theorem left_of_awaitsAccept {e : Endpoint C} (h : e.awaitsAccept = true) :
    e.left .call = 0 ∧ e.left .answer = 1 := by
  rw [awaitsAccept] at h
  split at h
  · next hl => rw [left_of_loop hl, left_of_loop hl]; exact ⟨rfl, rfl⟩
  · cases h

/-- What can happen while a closed endpoint `e` becomes `f`, and its loop does `os`, has these
    answers and takes note of these outcomes. -/
structure Winding (e f : Endpoint C) (os : List (Occurrence C))
    (answers outcomes : List (Except Failure C)) : Prop where
  closed : f.isClosed = true
  shared : f.shared = { e.shared with pendingInstances := f.pendingInstances }
  lingers : ∀ o ∈ os, o.lingers = true
  tally : ∀ c, c ≠ .failedConnects → c ≠ .backoffs → f.tally.get c = e.tally.get c
  backoffs : f.tally.get .backoffs =
    e.tally.get .backoffs + UInt64.ofNat (os.countP Occurrence.isPause)
  discards : outcomes.length ≤ os.countP Occurrence.isDiscard
  leaks : ∀ k : Leak, k.count os answers outcomes + f.left k ≤ e.left k

namespace Winding

variable {e f g : Endpoint C} {os os' : List (Occurrence C)}
  {as as' outs outs' : List (Except Failure C)}

theorem refl (h : e.isClosed = true) : Winding e e [] [] [] where
  closed := h
  shared := rfl
  lingers := List.forall_mem_nil _
  tally _ _ _ := rfl
  backoffs := by simp
  discards := Nat.le_refl _
  leaks k := by cases k <;> simp [Leak.count]

theorem trans (h : Winding e f os as outs) (h' : Winding f g os' as' outs') :
    Winding e g (os ++ os') (as ++ as') (outs ++ outs') where
  closed := h'.closed
  shared := by rw [h'.shared, h.shared]
  lingers := by
    intro o ho
    rcases List.mem_append.mp ho with ho | ho
    · exact h.lingers o ho
    · exact h'.lingers o ho
  tally := by
    intro c hfailed hback
    rw [h'.tally c hfailed hback, h.tally c hfailed hback]
  backoffs := by
    rw [h'.backoffs, h.backoffs, List.countP_append, UInt64.ofNat_add, UInt64.add_assoc]
  discards := by
    rw [List.countP_append, List.length_append]
    exact Nat.add_le_add h.discards h'.discards
  leaks := by
    intro k
    have hfirst := h.leaks k
    have hthen := h'.leaks k
    rw [Leak.count_append]
    omega

/-- What has happened was left. -/
theorem count_le (h : Winding e f os as outs) (k : Leak) : k.count os as outs ≤ e.left k :=
  Nat.le_of_add_right_le (h.leaks k)

theorem backoffs_eq_or_eq_succ (h : Winding e f os as outs) :
    f.tally.get .backoffs = e.tally.get .backoffs ∨
      f.tally.get .backoffs = e.tally.get .backoffs + 1 := by
  have hpause : os.countP Occurrence.isPause ≤ 1 :=
    Nat.le_trans (h.count_le .pause) (e.left_le_one .pause)
  rw [h.backoffs]
  rcases Nat.le_one_iff_eq_zero_or_eq_one.mp hpause with hn | hn
  · rw [hn]
    exact .inl (UInt64.add_zero _)
  · rw [hn]
    exact .inr rfl

/-- The loop stays where it is. -/
theorem keep (hc : f.isClosed = true)
    (hshared : f.shared = { e.shared with pendingInstances := f.pendingInstances })
    (hl : f.loop = e.loop)
    (htally : ∀ c, c ≠ .failedConnects → f.tally.get c = e.tally.get c) :
    Winding e f [] [] [] where
  closed := hc
  shared := hshared
  lingers := List.forall_mem_nil _
  tally c hfailed _ := htally c hfailed
  backoffs := by
    rw [htally .backoffs (by decide)]
    simp
  discards := Nat.le_refl _
  leaks := by
    intro k
    rw [left, hl]
    cases k <;> simp [Leak.count, left]

/-- The loop goes on to another station, without that anything is counted. -/
theorem goOn {l : AcceptLoop C} {s s' : Station C} (hc : f.isClosed = true)
    (hshared : f.shared = { e.shared with pendingInstances := f.pendingInstances })
    (hl : e.loop = some l) (hs : l.station = s) (hf : f.loop = some { l with station := s' })
    (htally : f.tally = e.tally) (hos : ∀ o ∈ os, o.lingers = true ∧ o.isPause = false)
    (hdiscards : outs.length ≤ os.countP Occurrence.isDiscard)
    (hleft : ∀ k : Leak, k.count os as outs + s'.left k ≤ s.left k) : Winding e f os as outs where
  closed := hc
  shared := hshared
  lingers o ho := (hos o ho).1
  tally := by
    intro c _ _
    rw [htally]
  backoffs := by
    have hpause : os.countP Occurrence.isPause = 0 := by
      rw [List.countP_eq_zero]
      intro o ho
      rw [(hos o ho).2]
      decide
    rw [htally, hpause]
    simp
  discards := hdiscards
  leaks := by
    intro k
    rw [left_of_loop hf, left_of_loop hl, hs]
    exact hleft k

end Winding

/-! ### One move -/

/-- The loop of a closed endpoint does a piece of its work. -/
theorem Piece.winding [Located C] {e f : Endpoint C} {l : AcceptLoop C} {s : Station C}
    {os : List (Occurrence C)} (hp : Piece e l s f os) (hc : e.isClosed = true)
    (hl : e.loop = some l) (hs : l.station = s)
    (hshared : f.shared = { e.shared with pendingInstances := f.pendingInstances }) :
    Winding e f os [] s.outcome?.toList := by
  have hopen (ho : e.isClosed = false) : False := by rw [hc] at ho; cases ho
  have hcf : f.isClosed = true := hp.isClosed_eq.trans hc
  cases hp with
  | throttle ho | cycle ho | succeed ho | fail ho | offer ho | enter ho | send ho | recede ho
  | nap ho | resume ho => exact (hopen ho).elim
  | await | rest => exact .refl hc
  | leave hleaves =>
    refine .goOn hcf hshared hl hs rfl rfl (List.forall_mem_nil _) ?_ ?_
    · cases s <;> first | exact Nat.zero_le _ | cases hleaves
    · intro k
      cases s <;> cases hleaves <;> cases k <;> simp [Station.outcome?]
  | discard hdiscards =>
    refine .goOn hcf hshared hl hs rfl rfl (by simp) ?_ ?_
    · cases s <;> simp [Station.outcome?]
    · intro k
      cases s <;> cases hdiscards <;> cases k <;> simp [Station.outcome?]
  | count =>
    refine ⟨hcf, hshared, by simp, ?_, ?_, Nat.zero_le _, ?_⟩
    · intro c _ hback
      exact (Tally.get_bump ..).trans (if_neg hback.symm)
    · exact (e.tally.get_bump .backoffs .backoffs).trans (by simp)
    · intro k
      rw [left_of_loop hl, hs]
      cases k <;> simp [left, moveTo, Station.outcome?]
  | begin | call | forsake | reserve | block | sleepOn | wake | stop =>
    refine .goOn hcf hshared hl hs rfl rfl (by simp) (Nat.zero_le _) ?_
    intro k
    cases k <;> simp [Station.outcome?]

theorem outcomes_of_loop {e : Endpoint C} {l : AcceptLoop C} {s : Station C}
    (hl : e.loop = some l) (hs : l.station = s) : e.outcomes .work = s.outcome?.toList := by
  rw [← hs, outcomes, Scene.takes, hl]
  rfl

/-- Only the provider's move answers, and only the loop's takes note. -/
theorem answers_of_not_onLoop {e f : Endpoint C} {m : Move C}
    (hm : m.aside = true ∨ m.receives = true) : e.answers f m = [] ∧ e.outcomes m = [] := by
  cases m with
  | work | acceptEnds => rcases hm with hm | hm <;> cases hm
  | _ => exact ⟨rfl, rfl⟩

/-- Every move winds a closed endpoint down. -/
theorem Change.winding [Located C] {e f : Endpoint C} {m : Move C} {os : List (Occurrence C)}
    (h : Change e m f os) (he : e.Sound) (hf : f.Sound) (hc : e.isClosed = true) :
    Winding e f (os.filter Occurrence.byLoop) (e.answers f m) (e.outcomes m) := by
  have hopen (ho : e.isClosed = false) : False := by rw [hc] at ho; cases ho
  have hcf : f.isClosed = true := h.isClosed hc
  have hshared : f.shared = { e.shared with pendingInstances := f.pendingInstances } :=
    he.shared_eq_of_timing_eq hf hc hcf h.timing_eq
  have hkeep (hos : ∀ o ∈ os, o.byLoop = false) (hl : f.loop = e.loop)
      (htally : ∀ c, c ≠ .failedConnects → f.tally.get c = e.tally.get c)
      (hm : e.answers f m = [] ∧ e.outcomes m = []) :
      Winding e f (os.filter Occurrence.byLoop) (e.answers f m) (e.outcomes m) := by
    rw [filter_byLoop_eq_nil hos, hm.1, hm.2]
    exact .keep hcf hshared hl htally
  cases h with
  | aside hm hb hos =>
    have htally : ∀ c, c ≠ .failedConnects → f.tally.get c = e.tally.get c := by
      intro c hfailed
      by_cases hcon : c = .connects
      · rw [hcon]; exact hb.connects hc
      · exact hb.tally c hcon hfailed
    exact hkeep (Occurrence.byLoop_of_not_onAcceptPath hos) hb.loop htally
      (answers_of_not_onLoop (.inl hm))
  | receiving hm hos => exact hkeep hos rfl (fun _ _ => rfl) (answers_of_not_onLoop (.inr hm))
  | refusal _ hos =>
    exact hkeep (Occurrence.byLoop_of_not_onAcceptPath hos) rfl (fun _ _ => rfl) ⟨rfl, rfl⟩
  | opening _ ho | closing ho => exact (hopen ho).elim
  | piece hl hs hp =>
    have houts : e.outcomes .work = _ := outcomes_of_loop hl hs
    rw [List.filter_eq_self.mpr hp.byLoop, houts]
    exact hp.winding hc hl hs hshared
  | noLoop hl =>
    refine hkeep (List.forall_mem_nil _) rfl (fun _ _ => rfl) ⟨rfl, ?_⟩
    rw [outcomes, Scene.takes, hl]
    rfl
  | @answered l outcome hl hs =>
    have hans : e.answers (e.moveTo l (.settling outcome)) (.acceptEnds outcome) = [outcome] := by
      obtain ⟨b, s⟩ := l
      cases hs
      simp [answers, awaitsAccept, hl, moveTo]
    rw [hans]
    refine .goOn hcf hshared hl hs rfl rfl (List.forall_mem_nil _) (Nat.le_refl _) ?_
    intro k
    cases k <;> simp [outcomes, Scene.takes]
  | rung hl hs =>
    refine .goOn hcf hshared hl hs rfl rfl (List.forall_mem_nil _) (Nat.le_refl _) ?_
    intro k
    cases k <;> simp [answers, outcomes, Scene.takes]
  | unawaited => exact hkeep (List.forall_mem_nil _) rfl (fun _ _ => rfl) ⟨by simp [answers], rfl⟩
  | _ => exact hkeep (List.forall_mem_nil _) rfl (fun _ _ => rfl) ⟨rfl, rfl⟩

/-! ### One accept at a time -/

/-- How many accepts are pending. -/
def pending (e : Endpoint C) : Nat := e.loop.elim 0 (·.station.pending)

theorem pending_of_loop {e : Endpoint C} {l : AcceptLoop C} (hl : e.loop = some l) :
    e.pending = l.station.pending := by rw [pending, hl]; rfl

theorem pending_eq_ite (e : Endpoint C) : e.pending = if e.awaitsAccept then 1 else 0 := by
  rw [awaitsAccept]
  split
  · next hl => rw [pending_of_loop hl]; rfl
  · next hne =>
    cases hl : e.loop with
    | none => rw [pending, hl]; rfl
    | some l =>
      obtain ⟨b, s⟩ := l
      rw [pending_of_loop hl]
      cases s <;> first | rfl | exact absurd hl (hne b)

/-- An accept begins only where none is pending, and is pending until it is answered. -/
theorem Change.pending_eq [Located C] {e f : Endpoint C} {m : Move C} {os : List (Occurrence C)}
    (h : Change e m f os) (hs : e.Sound) :
    (os.filter Occurrence.byLoop).countP Occurrence.isAcceptCall + e.pending =
      (e.answers f m).length + f.pending := by
  have hkeep (hos : ∀ o ∈ os, o.byLoop = false) (hl : f.loop = e.loop) (hm : e.answers f m = []) :
      (os.filter Occurrence.byLoop).countP Occurrence.isAcceptCall + e.pending =
        (e.answers f m).length + f.pending := by
    rw [filter_byLoop_eq_nil hos, hm, pending, pending, hl]
    rfl
  cases h with
  | aside hm hb hos =>
    exact hkeep (Occurrence.byLoop_of_not_onAcceptPath hos) hb.loop
      (answers_of_not_onLoop (.inl hm)).1
  | receiving hm hos => exact hkeep hos rfl (answers_of_not_onLoop (.inr hm)).1
  | refusal _ hos | closing _ hos => exact hkeep (Occurrence.byLoop_of_not_onAcceptPath hos) rfl rfl
  | opening _ hc hl hos =>
    have hnone : e.loop = none := by simpa [hl] using hs.loop hc
    rw [filter_byLoop_eq_nil (Occurrence.byLoop_of_not_onAcceptPath hos), pending, hnone]
    rfl
  | @piece _ s _ _ hl hst hp =>
    rw [List.filter_eq_self.mpr hp.byLoop, pending_of_loop hl, hst]
    cases hp with
    | await | rest => rw [pending_of_loop hl, hst]; simp [answers]
    | leave hs | discard hs =>
      rw [pending_of_loop rfl]
      revert hs
      cases s <;> simp [answers, Station.leaves, Station.discards]
    | @enter _ retries | @send _ retries =>
      rw [pending_of_loop rfl]
      cases retries <;> simp [answers, Station.afterSending]
    | _ => rw [pending_of_loop rfl]; simp [answers]
  | @answered l outcome hl hst =>
    obtain ⟨b, s⟩ := l
    cases hst
    simp [answers, pending, awaitsAccept, hl, moveTo]
  | rung hl hst =>
    rw [pending_of_loop hl, hst, pending_of_loop rfl]
    rfl
  | unawaited => exact hkeep (List.forall_mem_nil _) rfl (by simp [answers])
  | _ => exact hkeep (List.forall_mem_nil _) rfl rfl

end Endpoint

namespace Crowd

variable {C : Type} [Located C]

open Endpoint (Admitted Winding)

/-! ### Runs -/

/-- What the accept loop does in a run. -/
def doings (s : Crowd C) (ts : List (Turn C)) : List (Occurrence C) := gather next doing s ts

/-- The answers that the accepts of a run have had. -/
def answers (s : Crowd C) (ts : List (Turn C)) : List (Except Failure C) :=
  gather next (fun s t => s.endpoint.answers (s.next t).endpoint (s.image t)) s ts

/-- The outcomes that the loop takes note of in a run. -/
def outcomes (s : Crowd C) (ts : List (Turn C)) : List (Except Failure C) :=
  gather next (fun s t => s.endpoint.outcomes (s.image t)) s ts

/-- The effective backlogs of the calls of `listen` that return OK in a run. -/
def backlogs (s : Crowd C) (ts : List (Turn C)) : List Size :=
  gather next (fun s t => s.endpoint.granted (s.image t)) s ts

theorem pending_after (role : Role) (ipc : Bool) (config : Config) (ts : List (Turn C)) :
    ((start role ipc config).doings ts).countP Occurrence.isAcceptCall =
      ((start role ipc config).answers ts).length +
        ((start role ipc config).after ts).endpoint.pending := by
  induction ts using List.reverseRecOn with
  | nil => rfl
  | append_singleton ts t ih =>
    obtain ⟨os, hc, ho⟩ := ((start role ipc config).after ts).change_step t
    have hstep := hc.pending_eq (sound_after role ipc config ts)
    rw [doings, gather_concat after, answers, gather_concat after, Runs.concat after,
      List.countP_append, List.length_append, ← ho]
    rw [doings, answers] at ih
    omega

theorem admitted_after (role : Role) (ipc : Bool) (config : Config) (ts : List (Turn C)) :
    ((start role ipc config).after ts).endpoint.Admitted
      ((start role ipc config).backlogs ts) := by
  induction ts using List.reverseRecOn with
  | nil => exact ⟨fun _ => rfl, fun l hl => by cases hl⟩
  | append_singleton ts t ih =>
    obtain ⟨_, hc, -⟩ := ((start role ipc config).after ts).change_step t
    rw [Runs.concat after, backlogs, gather_concat after]
    exact hc.admitted (sound_after role ipc config ts) ih

/-- From a closed endpoint on every run winds it down. -/
theorem winding_after (s : Crowd C) (ts : List (Turn C)) (hs : s.endpoint.Sound)
    (hc : s.endpoint.isClosed = true) :
    Winding s.endpoint (s.after ts).endpoint (s.doings ts) (s.answers ts) (s.outcomes ts) := by
  induction ts generalizing s with
  | nil => exact .refl hc
  | cons t ts ih =>
    obtain ⟨os, hm, ho⟩ := s.change_step t
    have hsn := s.sound_next t hs
    have hw := hm.winding hs hsn hc
    rw [ho] at hw
    exact hw.trans (ih (s.next t) hsn hw.closed)

/-- The loop of a closed endpoint, left alone, ends, unless an accept is pending that nobody has
    answered since the close. -/
theorem ended_or_unanswered (s : Crowd C) (ts : List (Turn C)) (hs : s.endpoint.Sound)
    (hc : s.endpoint.isClosed = true) :
    let e := (s.after ts).endpoint.run.1
    e.loop = none ∨ e.loopEnded = true ∨ e.awaitsAccept = true ∧ s.answers ts = [] := by
  intro e
  -- The loop's run is a further part of the same run, so the leaks bound it as well.
  obtain ⟨n, hrun, hwaits⟩ := (s.after ts).exists_after_eq_run
  have hw := s.winding_after (ts ++ List.replicate n (.move .work)) hs hc
  rw [Runs.append after, hrun] at hw
  rcases Endpoint.loopEnded_or_awaitsAccept hw.closed hwaits with hnone | hended | hawait
  · exact .inl hnone
  · exact .inr (.inl hended)
  refine .inr (.inr ⟨hawait, List.length_eq_zero_iff.mp ?_⟩)
  have hleft : (s.answers (ts ++ List.replicate n (.move .work))).length + 1 ≤ 1 := by
    have hone := Nat.le_trans (hw.leaks .answer) (s.endpoint.left_le_one .answer)
    rwa [(Endpoint.left_of_awaitsAccept hawait).2] at hone
  rw [answers, gather_append after, List.length_append] at hleft
  rw [answers]
  omega

/-- Closing under preemption. However the steps of any number of callers' operations come between
    the pieces of the loop's work, there is at most one accept pending, and the count of connections
    exceeds the backlog by one at most. Once the endpoint is closed, nothing shared changes but the
    number of pending instances; the loop sends, settles, counts and throttles nothing any more; of
    the counters only those of failed connects and of delays change, and that of delays by one at
    most; at most one accept begins, and none if one is pending; every outcome that still comes is
    discarded; and the loop, left alone, has ended as soon as the last accept has been answered. -/
theorem close_under_preemption (role : Role) (ipc : Bool) (config : Config) (ts : List (Turn C)) :
    let fresh : Crowd C := start role ipc config
    let s := fresh.after ts
    ((fresh.doings ts).countP Occurrence.isAcceptCall =
      (fresh.answers ts).length + if s.endpoint.awaitsAccept then 1 else 0) ∧
    (fresh.backlogs ts = [] ∧ s.endpoint.count = 0 ∨
      ∃ b, fresh.backlogs ts = [b] ∧ s.endpoint.count.toNat ≤ b.toNat + 1) ∧
    (s.endpoint.isClosed = true → ∀ us,
      let f := (s.after us).endpoint
      f.isClosed = true ∧
      f.shared = { s.endpoint.shared with pendingInstances := f.pendingInstances } ∧
      (∀ o ∈ s.doings us, o.lingers = true) ∧
      (∀ c, c ≠ .failedConnects → c ≠ .backoffs → f.tally.get c = s.endpoint.tally.get c) ∧
      (f.tally.get .backoffs = s.endpoint.tally.get .backoffs ∨
        f.tally.get .backoffs = s.endpoint.tally.get .backoffs + 1) ∧
      (s.doings us).countP Occurrence.isAcceptCall ≤ (if s.endpoint.awaitsAccept then 0 else 1) ∧
      (s.outcomes us).length ≤ 1 ∧
      (s.outcomes us).length ≤ (s.doings us).countP Occurrence.isDiscard ∧
      (f.run.1.loop = none ∨ f.run.1.loopEnded = true ∨
        f.run.1.awaitsAccept = true ∧ s.answers us = [])) := by
  intro fresh s
  have hs : s.endpoint.Sound := sound_after role ipc config ts
  refine ⟨?_, (admitted_after role ipc config ts).count_le hs, ?_⟩
  · rw [← Endpoint.pending_eq_ite]
    exact pending_after role ipc config ts
  intro hc us f
  have hw : Winding s.endpoint f (s.doings us) (s.answers us) (s.outcomes us) :=
    s.winding_after us hs hc
  have hcalls : (s.doings us).countP Occurrence.isAcceptCall ≤
      if s.endpoint.awaitsAccept then 0 else 1 := by
    have hleft : (s.doings us).countP Occurrence.isAcceptCall ≤ s.endpoint.left .call :=
      hw.count_le .call
    split
    · next hawait => rwa [(Endpoint.left_of_awaitsAccept hawait).1] at hleft
    · exact Nat.le_trans hleft (s.endpoint.left_le_one .call)
  have houtcomes : (s.outcomes us).length ≤ 1 :=
    Nat.le_trans (hw.count_le .outcome) (s.endpoint.left_le_one .outcome)
  exact ⟨hw.closed, hw.shared, hw.lingers, hw.tally, hw.backoffs_eq_or_eq_succ, hcalls, houtcomes,
    hw.discards, s.ended_or_unanswered us hs hc⟩

/-- A close that takes the lock between the loop's look at it and the accept that follows. -/
def overtaken : Crowd Link :=
  (start .server false Scene.fixedBacklog).after
    [.move (.bind "a"), .move (.listen true 1 (.ok "a")), .start (.close none), .move .work,
      .move .work, .act 0]

/-- The accept begins, the close tells the listener, and the accept is answered. -/
def straggling : List (Turn Link) :=
  [.move .work, .act 0, .move (.acceptEnds (.ok ⟨0, none⟩)), .move .work, .move .work]

theorem close_under_preemption_of_overtaken :
    overtaken.endpoint.isClosed = true ∧
      (overtaken.doings straggling).countP Occurrence.isAcceptCall = 1 ∧
      (overtaken.outcomes straggling).length = 1 ∧
      (overtaken.doings straggling).countP Occurrence.isDiscard = 1 ∧
      (overtaken.after straggling).endpoint.loopEnded = true ∧
      ∀ o ∈ overtaken.doings straggling, o.lingers = true := by
  have hc : overtaken.endpoint.isClosed = true := by decide
  have hlaw := (close_under_preemption .server false Scene.fixedBacklog _).2.2 hc straggling
  exact ⟨hc, by decide, by decide, by decide, by decide, hlaw.2.2.1⟩

end Crowd

end LocalEndpoint
