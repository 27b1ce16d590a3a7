import LocalEndpoint.Proofs.Callbacks
import LocalEndpoint.Proofs.Conservation
import LocalEndpoint.Proofs.Singular

/-! The listener is asked to close once, by servers only. An endpoint that is closed while it
    listens owes its listener one call of `close`, which the caller that closed it still has to
    make, without the lock; what the callers have made and have still to make is what is owed
    (`closeCalls_after`). What the listener answers goes to the log: two runs whose answers
    differ are compared with the run in which it obeys (`Crowd.obeyed`), which has the same
    endpoint at every step and the same occurrences but for the failures that are logged. -/

namespace LocalEndpoint

namespace Occurrence

variable {C : Type}

/-- Whether the listener is asked to close. -/
@[simp] def isCloseCall : Occurrence C → Bool
  | .closeCalled => true
  | _ => false

/-- Whether a failure of the listener to close is ignored. -/
@[simp] def isCloseFailure : Occurrence C → Bool
  | .closeFailed _ => true
  | _ => false

/-- Whether it has nothing to do with the close of a listener. -/
def isQuiet (o : Occurrence C) : Bool := !o.isCloseCall && !o.isCloseFailure

theorem countP_isCloseCall_of_quiet {os : List (Occurrence C)} (h : ∀ o ∈ os, o.isQuiet = true) :
    os.countP isCloseCall = 0 := by
  rw [List.countP_eq_zero]
  intro o ho hcall
  have hquiet := h o ho
  rw [isQuiet, hcall] at hquiet
  cases hquiet

theorem filter_of_quiet {os : List (Occurrence C)} (h : ∀ o ∈ os, o.isQuiet = true) :
    os.filter (!·.isCloseFailure) = os := by
  rw [List.filter_eq_self]
  intro o ho
  exact (Bool.and_eq_true_iff.mp (h o ho)).2

end Occurrence

namespace Endpoint

variable {C : Type}

/-- How often the listener of an endpoint is to be asked to close, now that it is what it is. -/
def closings (e : Endpoint C) : Nat :=
  if e.role = .server ∧ e.loop.isSome = true ∧ e.isClosed = true then 1 else 0

theorem closings_of_open {e : Endpoint C} (h : e.isClosed = false) : e.closings = 0 := by
  rw [closings, if_neg]
  rintro ⟨-, -, hc⟩
  rw [h] at hc; cases hc

theorem closings_congr {e f : Endpoint C} (hrole : f.role = e.role)
    (hloop : f.loop.isSome = e.loop.isSome) (hc : f.isClosed = e.isClosed) :
    f.closings = e.closings := by
  rw [closings, closings, hrole, hloop, hc]

/-- What the log shows of the listener's answer. -/
def logged : Option Failure → List (Occurrence C)
  | some (.io fault) => [.closeFailed (.io fault)]
  | _ => []

theorem close_snd {e : Endpoint C} (hc : e.isClosed = false) (answer : Option Failure) :
    (e.close answer).2 =
      (if e.closesListener then .closeCalled :: logged answer else []) ++ [.closed e.role] := by
  cases answer with
  | none => simp [close, hc, logged]
  | some f => cases f <;> simp [close, hc, logged]

theorem closesListener_eq {e : Endpoint C} (hs : e.Sound) (hc : e.isClosed = false) :
    e.closesListener = (e.loop.isSome && e.role = .server) := by
  have hlistener : e.holdsListener = e.loop.isSome := hs.listener.trans (hs.loop hc).symm
  simp [closesListener, hc, hlistener]

theorem closings_shut {e : Endpoint C} (hs : e.Sound) (hc : e.isClosed = false) :
    e.shut.closings = if e.closesListener then 1 else 0 := by
  have hclosed : e.shut.isClosed = true := rfl
  have hloop : e.shut.loop = e.loop := rfl
  have hrole : e.shut.role = e.role := rfl
  rw [closesListener_eq hs hc, closings, hclosed, hloop, hrole]
  by_cases hserver : e.role = .server <;> simp [hserver]

theorem countP_logged (answer : Option Failure) :
    (logged answer : List (Occurrence C)).countP Occurrence.isCloseCall = 0 := by
  cases answer with
  | none => rfl
  | some f => cases f <;> rfl

/-- Who closes an endpoint has to ask its listener exactly if that is owed from then on. -/
theorem countP_close {e : Endpoint C} (hs : e.Sound) (answer : Option Failure) :
    (e.close answer).2.countP Occurrence.isCloseCall + e.closings =
      (e.close answer).1.closings := by
  rw [close_fst]
  cases hc : e.isClosed with
  | true => simp [close, hc]
  | false =>
    have hopen : ¬ e.isClosed = true := by simp [hc]
    rw [closings_of_open hc, close_snd hc, ← hc, if_neg hopen, closings_shut hs hc,
      List.countP_append]
    split
    · rw [List.countP_cons, countP_logged]
      rfl
    · rfl

/-- But for what is logged, it makes no difference to a close how the listener answers. -/
theorem filter_close (e : Endpoint C) (answer : Option Failure) :
    (e.close answer).2.filter (!·.isCloseFailure) = (e.close none).2 := by
  cases hc : e.isClosed with
  | true => simp [close, hc]
  | false =>
    have hlogged : (logged answer : List (Occurrence C)).filter (!·.isCloseFailure) = [] := by
      cases answer with
      | none => rfl
      | some f => cases f <;> rfl
    rw [close_snd hc, close_snd hc, List.filter_append]
    split
    · rw [List.filter_cons_of_pos rfl, hlogged]
      rfl
    · rfl

variable [Located C] {e f : Endpoint C} {m : Move C} {os : List (Occurrence C)}

theorem Change.role_eq (h : Change e m f os) (hm : m.aside = false) : f.role = e.role := by
  cases h with
  | aside ha => rw [hm] at ha; cases ha
  | piece _ _ hp => cases hp <;> rfl
  | _ => rfl

/-- Only a close makes an endpoint owe the call. -/
theorem Change.closings_eq (h : Change e m f os) (hrole : f.role = e.role)
    (hm : m.isClose = false) : f.closings = e.closings := by
  cases h with
  | aside _ hb => exact closings_congr hrole (by rw [hb.loop]) hb.closed
  | receiving | refusal | release | noLoop | unawaited | unheard => rfl
  | opening _ hc =>
    rw [closings_of_open hc]
    exact closings_of_open rfl
  | closing | closeAgain => cases hm
  | piece hl _ hp =>
    refine closings_congr hrole ?_ hp.isClosed_eq
    cases hp <;> simp [hl, moveTo]
  | answered hl | rung hl => exact closings_congr hrole (by rw [hl]; rfl) rfl

end Endpoint

/-! ### What has nothing to do with a close -/

namespace Scene

variable {C : Type}

theorem isQuiet_panicOf (callback : Callback) (panics : Option Payload) :
    ∀ o ∈ (panicOf callback panics : List (Occurrence C)), o.isQuiet = true := by
  cases panics <;> simp [panicOf, Occurrence.isQuiet]

variable [Located C]

/-- What is done in one go leaves the role as it is. -/
theorem role_of_oneGo (s : Scene C) {m : Move C} (hm : m.isOneGo = true) :
    (s.next m).endpoint.role = s.endpoint.role := by
  cases ha : m.aside with
  | false => exact (s.change_step m).role_eq ha
  | true =>
    cases m with
    | bind name =>
      simp only [next, step, put, Endpoint.bind]
      split <;> rfl
    | setPendingInstances | ref | unref | takeConnection => rfl
    | connect | connectEnds | fchmod => cases hm
    | _ => cases ha

theorem isQuiet_of_oneGo (s : Scene C) {m : Move C} (hm : m.isOneGo = true) :
    ∀ o ∈ (s.step m).2, o.isQuiet = true := by
  cases m with
  | work =>
    intro o ho
    have hc := s.change_step .work
    generalize (s.next .work).endpoint = f, (s.step .work).2 = os at hc ho
    have hloop : o.byLoop = true := by
      cases hc with
      | aside ha | receiving ha => cases ha
      | noLoop => cases ho
      | piece _ _ hp => exact hp.byLoop o ho
    cases o <;> first | rfl | cases hloop
  | listen inRuntime requested answer =>
    simp only [step, put, Endpoint.listen]
    split <;> try simp [Occurrence.isQuiet]
    split
    · split <;> simp
    · simp
  | ref | unref =>
    simp only [step, put, Endpoint.ref, Endpoint.unref]
    split <;> simp [Occurrence.isQuiet]
  | connect | connectEnds | poll | fchmod | close => cases hm
  | _ => exact List.forall_mem_nil _

end Scene

namespace Remarks

variable {C : Type}

/-- Nothing is told of a close. -/
def Quiet (r : Remarks C) : Prop := ∀ o ∈ r.list, o.isQuiet = true

theorem Quiet.panicking {r : Remarks C} (h : r.Quiet) (callback : Callback)
    (panics : Option Payload) : (r.panicking callback panics).Quiet := by
  intro o ho
  rcases List.mem_append.mp ho with ho | ho
  · exact h o ho
  · exact Scene.isQuiet_panicOf callback panics o ho

theorem quiet_ofEvent (event : Event C) (reader : Reader) : (ofEvent event reader).Quiet := by
  cases reader with
  | direct | stream => exact List.forall_mem_nil _
  | dispatcher panics =>
    have hinvoked : (⟨[.invoked event], by simp⟩ : Remarks C).Quiet := by
      simp [Quiet, Occurrence.isQuiet]
    exact hinvoked.panicking .onConnection panics

/-- The same, had the listener answered that it is closed. -/
def obeyed (r : Remarks C) : Remarks C where
  list := r.list.filter (!·.isCloseFailure)
  not_byLoop := by
    intro o ho
    exact r.not_byLoop o (List.mem_of_mem_filter ho)

theorem obeyed_of_quiet {r : Remarks C} (h : r.Quiet) : r.obeyed = r := by
  obtain ⟨os, hos⟩ := r
  simp only [obeyed, Occurrence.filter_of_quiet h]

end Remarks

namespace Errand

variable {C : Type}

def isClose : Errand C → Bool
  | .close _ => true
  | _ => false

/-- It has nothing to do with a close. -/
def Quiet : Errand C → Prop
  | .close _ => False
  | .tell remarks => remarks.Quiet
  | _ => True

/-- How often it is still to ask the listener to close, if it does not close the endpoint first. -/
def closeCalls : Errand C → Nat
  | .tell remarks => remarks.list.countP Occurrence.isCloseCall
  | _ => 0

/-- The same, had the listener answered that it is closed. -/
def obeyed : Errand C → Errand C
  | .close _ => .close none
  | .tell remarks => .tell remarks.obeyed
  | errand => errand

theorem closeCalls_of_quiet {errand : Errand C} (h : errand.Quiet) : errand.closeCalls = 0 := by
  cases errand with
  | tell remarks => exact Occurrence.countP_isCloseCall_of_quiet h
  | _ => rfl

theorem obeyed_of_quiet {errand : Errand C} (h : errand.Quiet) : errand.obeyed = errand := by
  cases errand with
  | close => cases h
  | tell remarks => exact congrArg tell (Remarks.obeyed_of_quiet h)
  | _ => rfl

variable [Located C] (e : Endpoint C)

/-- What tells of a close has closed the endpoint. -/
theorem quiet_rest {errand : Errand C} (hne : errand.isClose = false) :
    ∀ rest ∈ (errand.step e).2.2, rest.Quiet := by
  intro rest hrest
  cases errand with
  | close => cases hne
  | connect a panics =>
    rw [step] at hrest
    split at hrest
    · next hc =>
      cases hrest
      refine Remarks.Quiet.panicking ?_ _ _
      simp [Remarks.Quiet, Remarks.ofAside, Endpoint.beginConnect, hc, Occurrence.isQuiet]
    · cases hrest
      exact trivial
  | land a outcome panics =>
    cases hrest
    refine Remarks.Quiet.panicking ?_ _ _
    cases outcome with
    | error f => simp [Remarks.Quiet, Remarks.ofAside, Endpoint.finishConnect, Occurrence.isQuiet]
    | ok c =>
      cases hc : e.isClosed <;>
        simp [Remarks.Quiet, Remarks.ofAside, Endpoint.finishConnect, hc, Occurrence.isQuiet]
  | fchmod bits answer =>
    cases hrest
    simp only [Quiet, Remarks.Quiet, Remarks.ofAside, Endpoint.fchmod]
    split
    · exact List.forall_mem_nil _
    · split <;> simp [Occurrence.isQuiet]
  | receive | look =>
    cases hrest
    cases hc : e.isClosed <;> exact trivial
  | poll reader =>
    rw [step] at hrest
    split at hrest
    · cases hr : e.poll.1 with
      | item event =>
        simp only [hr, Option.mem_def, Option.some.injEq] at hrest
        exact hrest ▸ Remarks.quiet_ofEvent event reader
      | pending | ended =>
        simp only [hr, Option.mem_def, Option.some.injEq] at hrest
        exact hrest ▸ trivial
    · cases hrest
  | leave reader => cases reader <;> cases hrest
  | dial | ring =>
    cases hrest
    exact trivial
  | tell => cases hrest

theorem map_obeyed_rest {errand : Errand C} (hne : errand.isClose = false) :
    (errand.step e).2.2.map obeyed = (errand.step e).2.2 := by
  have hquiet := quiet_rest e hne
  cases hrest : (errand.step e).2.2 with
  | none => rfl
  | some rest => exact congrArg some (obeyed_of_quiet (hquiet rest hrest))

/-- Only who tells of it asks the listener, or logs its answer. -/
theorem isQuiet_step {errand : Errand C} (hne : ∀ remarks, errand ≠ .tell remarks) :
    ∀ o ∈ (errand.step e).2.1, o.isQuiet = true := by
  cases errand with
  | tell remarks => exact absurd rfl (hne remarks)
  | connect a panics =>
    rw [step]
    split <;> exact List.forall_mem_nil _
  | dial => simp [step, Occurrence.isQuiet]
  | poll reader =>
    rw [step]
    split
    · split <;> simp [Occurrence.isQuiet]
    · exact List.forall_mem_nil _
  | leave reader => cases reader <;> simp [step, Occurrence.isQuiet]
  | _ => exact List.forall_mem_nil _

theorem role_step (errand : Errand C) : (errand.step e).1.role = e.role := by
  cases errand with
  | connect a panics =>
    rw [step]
    split <;> rfl
  | land a outcome panics =>
    cases outcome with
    | error f => rfl
    | ok c => cases hc : e.isClosed <;> simp [step, Endpoint.finishConnect, hc, Endpoint.attach]
  | close answer =>
    simp only [step, Endpoint.close_fst]
    split <;> rfl
  | poll reader =>
    rw [step]
    split
    · split <;> rw [poll_snd]
    · rfl
  | leave reader =>
    cases reader with
    | direct => rfl
    | stream | dispatcher =>
      rw [step]
      split <;> rfl
  | _ => rfl

omit [Located C] in
theorem begins_obeyed (errand : Errand C) : errand.obeyed.begins = errand.begins := by
  cases errand <;> rfl

omit [Located C] in
theorem closeCalls_of_begins {errand : Errand C} (h : errand.begins = true) :
    errand.closeCalls = 0 := by
  cases errand with
  | tell => cases h
  | _ => rfl

/-! ### One step of an errand -/

theorem countP_step (errand : Errand C) :
    (errand.step e).2.1.countP Occurrence.isCloseCall = errand.closeCalls := by
  cases errand with
  | tell => rfl
  | _ => exact Occurrence.countP_isCloseCall_of_quiet (isQuiet_step e (by simp))

/-- Who makes the endpoint owe a call is to make it. -/
theorem closeCalls_step {e : Endpoint C} (hs : e.Sound) (errand : Errand C) :
    (errand.step e).2.2.elim 0 closeCalls + e.closings = (errand.step e).1.closings := by
  cases hclose : errand.isClose with
  | true =>
    cases errand with
    | close answer => exact Endpoint.countP_close hs answer
    | _ => cases hclose
  | false =>
    obtain ⟨os, hc, -⟩ := errand.change_step e
    have himage : errand.image.isClose = false := by cases errand <;> first | rfl | cases hclose
    rw [hc.closings_eq (errand.role_step e) himage]
    have hquiet := quiet_rest e hclose
    cases hrest : (errand.step e).2.2 with
    | none => exact Nat.zero_add _
    | some rest =>
      rw [Option.elim_some, closeCalls_of_quiet (hquiet rest hrest), Nat.zero_add]

/-- What the listener answers makes no difference but to what is logged. -/
theorem step_obeyed (errand : Errand C) :
    errand.obeyed.step e = ((errand.step e).1, (errand.step e).2.1.filter (!·.isCloseFailure),
      (errand.step e).2.2.map obeyed) := by
  cases errand with
  | close answer =>
    have hremarks : Remarks.ofAside (e.close none).2 (e.onAcceptPath_close none) =
        (Remarks.ofAside (e.close answer).2 (e.onAcceptPath_close answer)).obeyed := by
      simp only [Remarks.obeyed, Remarks.ofAside, e.filter_close answer]
    simp only [obeyed, step, Endpoint.close_fst, hremarks]
    rfl
  | tell remarks => rfl
  | _ =>
    rw [Occurrence.filter_of_quiet (isQuiet_step e (by simp)), map_obeyed_rest e rfl]
    rfl

end Errand

/-- The same, had the listener answered that it is closed. -/
def Turn.obeyed {C : Type} : Turn C → Turn C
  | .start errand => .start errand.obeyed
  | t => t

namespace Crowd

variable {C : Type}

/-- How often those who have closed the endpoint are still to ask the listener to close. -/
def closeCalls (s : Crowd C) : Nat := (s.errands.map Errand.closeCalls).sum

/-- The same, had the listener answered that it is closed. -/
def obeyed (s : Crowd C) : Crowd C := { s with errands := s.errands.map Errand.obeyed }

variable [Located C]

/-- Everything that occurs in a run. -/
def history (s : Crowd C) (ts : List (Turn C)) : List (Occurrence C) :=
  gather next (fun s t => (s.step t).2) s ts

/-- The endpoint after each turn of a run, and what occurs in it but for the log of the listener's
    answers. -/
def conduct (s : Crowd C) (ts : List (Turn C)) : List (Endpoint C × List (Occurrence C)) :=
  gather next (fun s t => [((s.next t).endpoint, (s.step t).2.filter (!·.isCloseFailure))]) s ts

/-! ### One turn -/

theorem role_next (s : Crowd C) (t : Turn C) : (s.next t).endpoint.role = s.endpoint.role := by
  cases t with
  | start errand =>
    rw [next, step]
    split <;> rfl
  | act i =>
    rw [next, step]
    split
    · rfl
    · next errand _ =>
      have hrole := errand.role_step s.endpoint
      cases hr : (errand.step s.endpoint).2.2 <;> simpa [hr] using hrole
  | answer i outcome =>
    rw [next, step]
    split <;> rfl
  | move m =>
    rw [next, step]
    split
    · next hm => exact Scene.role_of_oneGo ⟨s.endpoint, []⟩ hm
    · rfl

/-- Who asks the listener has owed it. -/
theorem countP_step_le (s : Crowd C) (t : Turn C) :
    (s.step t).2.countP Occurrence.isCloseCall ≤ s.closeCalls := by
  cases t with
  | start errand =>
    rw [step]
    split <;> exact Nat.zero_le _
  | act i =>
    rw [step]
    cases hi : s.errands[i]? with
    | none => exact Nat.zero_le _
    | some errand =>
      have hstep := errand.countP_step s.endpoint
      have herase := sum_eraseIdx Errand.closeCalls hi
      rw [closeCalls]
      cases hr : (errand.step s.endpoint).2.2 <;> simp only [hr] <;> omega
  | answer i outcome =>
    rw [step]
    split <;> exact Nat.zero_le _
  | move m =>
    rw [step]
    split
    · next hm =>
      rw [Occurrence.countP_isCloseCall_of_quiet (Scene.isQuiet_of_oneGo ⟨s.endpoint, []⟩ hm)]
      exact Nat.zero_le _
    · exact Nat.zero_le _

/-- What a turn makes owed is to be asked for, and what is asked for was owed. -/
theorem closeCalls_next (s : Crowd C) (t : Turn C) (hs : s.endpoint.Sound) :
    (s.step t).2.countP Occurrence.isCloseCall + (s.next t).closeCalls + s.endpoint.closings =
      s.closeCalls + (s.next t).endpoint.closings := by
  rw [next, closeCalls, closeCalls]
  cases t with
  | start errand =>
    rw [step]
    split
    · next hbegins => simp [Errand.closeCalls_of_begins hbegins]
    · simp
  | act i =>
    rw [step]
    cases hi : s.errands[i]? with
    | none => simp
    | some errand =>
      have hcount := errand.countP_step s.endpoint
      have hstep := errand.closeCalls_step hs
      cases hr : (errand.step s.endpoint).2.2 with
      | none =>
        have herase := sum_eraseIdx Errand.closeCalls hi
        simp only [hr, Option.elim_none] at hstep ⊢
        omega
      | some rest =>
        have hset := sum_set Errand.closeCalls hi rest
        simp only [hr, Option.elim_some] at hstep ⊢
        omega
  | answer i outcome =>
    rw [step]
    split
    · next a panics hi =>
      have hset := sum_set Errand.closeCalls hi (.land a outcome panics)
      simp only [Errand.closeCalls] at hset
      simp only [List.countP_nil]
      omega
    · simp
  | move m =>
    rw [step]
    split
    · next hm =>
      have hquiet := Occurrence.countP_isCloseCall_of_quiet
        (Scene.isQuiet_of_oneGo ⟨s.endpoint, []⟩ hm)
      have hclosings := (Scene.change_step ⟨s.endpoint, []⟩ m).closings_eq
        (Scene.role_of_oneGo ⟨s.endpoint, []⟩ hm) (by cases m <;> first | rfl | cases hm)
      simp only [Scene.next] at hclosings
      simp only [hquiet, hclosings]
      omega
    · simp

theorem step_obeyed (s : Crowd C) (t : Turn C) :
    s.obeyed.step t.obeyed =
      ((s.step t).1.obeyed, (s.step t).2.filter (!·.isCloseFailure)) := by
  cases t with
  | start errand =>
    simp only [Turn.obeyed, step, Errand.begins_obeyed]
    split <;> simp [obeyed]
  | act i =>
    simp only [Turn.obeyed, step, obeyed, List.getElem?_map]
    cases hi : s.errands[i]? with
    | none => rfl
    | some errand =>
      simp only [Option.map_some, errand.step_obeyed s.endpoint]
      cases hr : (errand.step s.endpoint).2.2 with
      | none => simp [List.eraseIdx_map]
      | some rest => simp [List.map_set]
  | answer i outcome =>
    simp only [Turn.obeyed, step, obeyed, List.getElem?_map]
    cases hi : s.errands[i]? with
    | none => rfl
    | some errand => cases errand <;> simp [Errand.obeyed, List.map_set]
  | move m =>
    simp only [Turn.obeyed, step]
    split
    · next hm =>
      have hquiet := Occurrence.filter_of_quiet (Scene.isQuiet_of_oneGo ⟨s.endpoint, []⟩ hm)
      simp only [obeyed]
      rw [hquiet]
    · rfl

/-! ### Runs -/

theorem role_after (role : Role) (ipc : Bool) (config : Config) (ts : List (Turn C)) :
    ((start role ipc config).after ts).endpoint.role = role := by
  induction ts using List.reverseRecOn with
  | nil => rfl
  | append_singleton ts t ih => rw [Runs.concat after, role_next, ih]

/-- What the callers have asked the listener, and are still to ask it, is what is owed. -/
theorem closeCalls_after (role : Role) (ipc : Bool) (config : Config) (ts : List (Turn C)) :
    ((start role ipc config).history ts).countP Occurrence.isCloseCall +
        ((start role ipc config).after ts).closeCalls =
      ((start role ipc config).after ts).endpoint.closings := by
  induction ts using List.reverseRecOn with
  | nil => rw [Endpoint.closings_of_open rfl]; rfl
  | append_singleton ts t ih =>
    have hstep := closeCalls_next _ t (sound_after role ipc config ts)
    rw [history, gather_concat after, Runs.concat after, List.countP_append]
    rw [history] at ih
    omega

/-- A loop there is exactly if a `listen` has returned OK. -/
theorem loop_isSome_after (role : Role) (ipc : Bool) (config : Config) (ts : List (Turn C)) :
    ((start role ipc config).after ts).endpoint.loop.isSome = true ↔
      (start role ipc config : Crowd C).backlogs ts ≠ [] := by
  have hadmitted := admitted_after (C := C) role ipc config ts
  cases hl : ((start role ipc config).after ts).endpoint.loop with
  | none => simp [hadmitted.fresh hl]
  | some l => simp [(hadmitted.bounded l hl).1]

theorem after_obeyed (s : Crowd C) (ts : List (Turn C)) :
    s.obeyed.after (ts.map Turn.obeyed) = (s.after ts).obeyed := by
  induction ts generalizing s with
  | nil => rfl
  | cons t ts ih =>
    have hstep : s.obeyed.next t.obeyed = (s.next t).obeyed := congrArg Prod.fst (s.step_obeyed t)
    change (s.obeyed.next t.obeyed).after (ts.map Turn.obeyed) = _
    rw [hstep, ih]
    rfl

theorem conduct_obeyed (s : Crowd C) (ts : List (Turn C)) :
    s.obeyed.conduct (ts.map Turn.obeyed) = s.conduct ts := by
  induction ts generalizing s with
  | nil => rfl
  | cons t ts ih =>
    have hstep : s.obeyed.next t.obeyed = (s.next t).obeyed := congrArg Prod.fst (s.step_obeyed t)
    rw [List.map_cons, conduct, gather, conduct, gather, hstep, s.step_obeyed t, List.filter_filter]
    simp only [Bool.and_self]
    exact congrArg _ (ih (s.next t))

/-- The listener is asked to close once, and its answer never matters. However callers come between
    the steps of others, and however often the endpoint is closed: what callers have asked of the
    listener, and are still to ask of it with their next step, is one call, if the role is that of a
    server, a `listen` has returned OK, and the endpoint is closed, and none otherwise. Whenever the
    call is made, the endpoint is closed and receiving has ended. Two runs that differ in nothing
    but the listener's answers have the same endpoint after every turn, and the same occurrences in
    it but for the failures that are logged, and leave the same to be done. A close of a closed
    endpoint changes nothing and tells nothing. -/
theorem listener_closed_once (role : Role) (ipc : Bool) (config : Config) (ts : List (Turn C)) :
    let fresh : Crowd C := start role ipc config
    let s := fresh.after ts
    ((fresh.history ts).countP Occurrence.isCloseCall + s.closeCalls =
      if role = .server ∧ fresh.backlogs ts ≠ [] ∧ s.endpoint.isClosed = true then 1 else 0) ∧
    (∀ i errand, s.errands[i]? = some errand →
      (s.step (.act i)).2.countP Occurrence.isCloseCall = errand.closeCalls) ∧
    (∀ t, .closeCalled ∈ (s.step t).2 →
      s.endpoint.state = .closed ∧ s.endpoint.receive.1 = .ended) ∧
    (∀ us, us.map Turn.obeyed = ts.map Turn.obeyed →
      fresh.conduct us = fresh.conduct ts ∧ (fresh.after us).obeyed = s.obeyed) ∧
    (s.endpoint.isClosed = true → ∀ i answer, s.errands[i]? = some (.close answer) →
      (s.step (.act i)).2 = [] ∧ (s.next (.act i)).endpoint = s.endpoint ∧
        (s.next (.act i)).errands = s.errands.set i (.tell ⟨[], List.forall_mem_nil _⟩)) := by
  intro fresh s
  have howed : (fresh.history ts).countP Occurrence.isCloseCall + s.closeCalls =
      s.endpoint.closings := closeCalls_after role ipc config ts
  have hrole : s.endpoint.role = role := role_after role ipc config ts
  refine ⟨?once, ?made, ?late, ?alike, ?again⟩
  case once =>
    have hloop : s.endpoint.loop.isSome = true ↔ fresh.backlogs ts ≠ [] :=
      loop_isSome_after role ipc config ts
    simp only [howed, Endpoint.closings, hrole, hloop]
  case made =>
    intro i errand hi
    have hcount := errand.countP_step s.endpoint
    rw [step, hi]
    cases hr : (errand.step s.endpoint).2.2 <;> simpa [hr] using hcount
  case late =>
    intro t hcalled
    have hpos : 0 < (s.step t).2.countP Occurrence.isCloseCall :=
      List.countP_pos_iff.mpr ⟨_, hcalled, rfl⟩
    have hle := s.countP_step_le t
    have hclosed : s.endpoint.isClosed = true := by
      cases hc : s.endpoint.isClosed with
      | true => rfl
      | false =>
        rw [Endpoint.closings_of_open hc] at howed
        omega
    refine ⟨?_, ?_⟩
    · exact Endpoint.isClosed_iff.mp hclosed
    · rw [Endpoint.receive, if_pos hclosed]
  case alike =>
    intro us hsame
    have hfresh : fresh.obeyed = fresh := rfl
    refine ⟨?_, ?_⟩
    · rw [← conduct_obeyed fresh us, hsame, conduct_obeyed]
    · rw [← after_obeyed fresh us, hsame, after_obeyed]
  case again =>
    intro hc i answer hi
    have hnothing : s.endpoint.close answer = (s.endpoint, []) := by simp [Endpoint.close, hc]
    have hstep : (Errand.close answer).step s.endpoint =
        (s.endpoint, [], some (.tell ⟨[], List.forall_mem_nil _⟩)) := by
      simp only [Errand.step, hnothing, Remarks.ofAside]
    rw [next, step, hi]
    simp only [hstep, and_self]

/-- Two callers close a listening endpoint, and the listener gives this answer. -/
def closedTwice (answer : Option Failure) : List (Turn Link) :=
  [.move (.bind "a"), .move (.listen true 1 (.ok "a")), .start (.close answer),
    .start (.close none), .act 0, .act 1, .act 0, .act 0]

/-- A listener that refuses is asked once as well, and its refusal shows in the log alone. -/
theorem listener_closed_once_of_closedTwice :
    let fresh : Crowd Link := start .server false Scene.fixedBacklog
    let refused := closedTwice (some (.io ⟨.addrInUse, "in use"⟩))
    (fresh.history refused).countP Occurrence.isCloseCall = 1 ∧
      (fresh.history refused).countP Occurrence.isCloseFailure = 1 ∧
      (fresh.history (closedTwice none)).countP Occurrence.isCloseFailure = 0 ∧
      (fresh.after refused).closeCalls = 0 ∧ (fresh.after refused).endpoint.isClosed = true ∧
      fresh.conduct (closedTwice none) = fresh.conduct refused := by
  intro fresh refused
  have hpending : (fresh.after refused).closeCalls = 0 := by decide
  have hclosed : (fresh.after refused).endpoint.isClosed = true := by decide
  obtain ⟨honce, -, -, halike, -⟩ := listener_closed_once .server false Scene.fixedBacklog refused
  obtain ⟨hconduct, -⟩ := halike (closedTwice none) rfl
  refine ⟨?_, by decide, by decide, hpending, hclosed, hconduct⟩
  have hlistened : fresh.backlogs refused ≠ [] := by decide
  rwa [if_pos ⟨rfl, hlistened, hclosed⟩, hpending] at honce

end Crowd

end LocalEndpoint
