import LocalEndpoint.Proofs.Containment
import LocalEndpoint.Proofs.Display

/-! What the counter of accept failures counts. A failure is counted where its accept settles
    (`failures_step`), and the event that reports it enters the channel later, if at all: it may
    have to wait for room, and a loop that stops meanwhile lets go of it (`Endpoint.Forfeits`). So
    where the loop waits, the counter is ahead of the reports exactly if a failure waits for room or
    is forfeited (`failures_of_waits`). The counter of accepts has no such gap, since it is
    incremented where the event enters the channel. -/

namespace LocalEndpoint

/-- How many of these events report a failure. -/
def Event.failures {C : Type} (events : List (Event C)) : Nat := events.countP (!·.isOk)

open Event (failures)

theorem Event.failures_concat {C : Type} (events : List (Event C)) (event : Event C) :
    failures (events ++ [event]) = failures events + (!event.isOk).toNat := by
  rw [failures, List.countP_append, List.countP_singleton]
  cases event.isOk <;> rfl

/-- A counter that goes on counts on, also where it wraps. -/
theorem Counter.ofNat_succ_ne (n : Nat) : UInt64.ofNat (n + 1) ≠ UInt64.ofNat n := by
  intro h
  have hn := congrArg UInt64.toNat h
  simp only [UInt64.toNat_ofNat'] at hn
  omega

namespace Endpoint

variable {C : Type} [Located C]

/-- A piece of the loop's work counts a failure exactly if a failed accept settles in it. -/
theorem Piece.failures_eq {e f : Endpoint C} {l : AcceptLoop C} {s : Station C}
    {os : List (Occurrence C)} (hp : Piece e l s f os) :
    Counter.acceptFailures.increments os =
      failures ((if e.isClosed then [] else s.outcome?.toList).map (Event.reporting e.ipc)) := by
  have hnothing {news : List (Except Failure C)} (hn : news = [])
      (hcount : Counter.acceptFailures.increments os = 0) :
      Counter.acceptFailures.increments os = failures (news.map (Event.reporting e.ipc)) := by
    rw [hn, hcount]
    rfl
  cases hp with
  | leave _ hc | discard _ hc => exact hnothing (if_pos hc) rfl
  | succeed hc => rw [if_neg (by simp [hc])]; rfl
  | @fail f hc =>
    have hone : failures [Event.reporting e.ipc (.error f : Except Failure C)] = 1 := by
      change failures ([] ++ [Event.failed (Code.forAccept f)]) = 1
      rw [Event.failures_concat, Event.isOk_forAccept]
      rfl
    rw [if_neg (by simp [hc])]
    exact hone.symm
  | _ => exact hnothing (ite_self _) rfl

end Endpoint

namespace Scene

variable {C : Type} [Located C]

/-- A move counts a failure exactly if a failed accept settles in it. -/
theorem failures_step (s : Scene C) (m : Move C) :
    Counter.acceptFailures.increments (s.step m).2 =
      failures ((s.settles m).map (Event.reporting s.endpoint.ipc)) := by
  have hc := s.change_step m
  generalize (s.next m).endpoint = f, (s.step m).2 = os at hc
  have hnothing (hm : m ≠ .work) (hos : ∀ o ∈ os, o.byLoop = false) :
      Counter.acceptFailures.increments os =
        failures ((s.settles m).map (Event.reporting s.endpoint.ipc)) := by
    rw [s.settles_of_ne_work hm, Counter.increments_of_not_byLoop _ hos]
    rfl
  cases hc with
  | aside hm _ ho =>
    exact hnothing (fun h => by rw [h] at hm; cases hm) (Occurrence.byLoop_of_not_onAcceptPath ho)
  | receiving hm ho => exact hnothing (fun h => by rw [h] at hm; cases hm) ho
  | refusal _ ho | opening _ _ _ ho | closing _ ho =>
    exact hnothing (fun h => by cases h) (Occurrence.byLoop_of_not_onAcceptPath ho)
  | noLoop hl => simp [settles, takes, hl, Counter.increments, failures]
  | piece hl hst hp => simpa [settles, takes, hl, hst] using hp.failures_eq
  | _ => exact hnothing (fun h => by cases h) (List.forall_mem_nil _)

/-- The failures counted in a run are those that settled in it. -/
theorem failures_history (s : Scene C) (ms : List (Move C)) :
    Counter.acceptFailures.increments (s.history ms) = failures (s.settled ms) := by
  induction ms using List.reverseRecOn with
  | nil => rfl
  | append_singleton ms m ih =>
    rw [history_concat, Counter.increments_append, ih, failures_step, ipc_after, settled, settled,
      gather_concat after, List.map_append]
    exact (List.countP_append ..).symm

end Scene

namespace Endpoint

variable {C : Type}

/-- Whether a failure has settled that is never going to be sent: the loop has ended without it. -/
def Forfeits (e : Endpoint C) (settled sent : List (Event C)) : Prop :=
  e.loopEnded = true ∧ ∃ event, event.isOk = false ∧ settled = sent ++ [event]

theorem forfeits_concat_iff {e : Endpoint C} {sent : List (Event C)} {event : Event C} :
    e.Forfeits (sent ++ [event]) sent ↔ e.loopEnded = true ∧ event.isOk = false := by
  refine and_congr_right fun _ => ⟨?_, fun hok => ⟨event, hok, rfl⟩⟩
  intro ⟨event', hok, heq⟩
  rw [List.append_cancel_left_eq, List.cons.injEq] at heq
  rw [heq.1]
  exact hok

theorem not_forfeits_self (e : Endpoint C) (sent : List (Event C)) : ¬ e.Forfeits sent sent :=
  fun ⟨_, _, _, heq⟩ => by simp at heq

/-- Where the loop waits, one failure at most has settled and has not been sent. If there is one, it
    either waits for room or is forfeited. -/
theorem Delivered.failures_of_waits {e : Endpoint C} {settled sent received : List (Event C)}
    (h : e.Delivered settled sent received) (hw : e.waits = true) :
    (failures settled = failures sent ∧ ¬ e.HoldsBack false ∧ ¬ e.Forfeits settled sent) ∨
      (failures settled = failures sent + 1 ∧
        (e.HoldsBack false ↔ ¬ e.Forfeits settled sent)) := by
  cases hl : e.loop with
  | none =>
    obtain ⟨rfl, rfl⟩ := h.fresh hl
    exact .inl ⟨rfl, by simp [HoldsBack, waitsForRoom, hl], e.not_forfeits_self []⟩
  | some l =>
    obtain ⟨b, s⟩ := l
    have haccounts := h.inHand _ hl
    simp only [waits, awaitsAccept, waitsForRoom, napDelay?, loopEnded, hl] at hw
    cases s with
    | accepting | napping =>
      obtain rfl : settled = sent := haccounts
      exact .inl ⟨rfl, by simp [HoldsBack, waitsForRoom, hl], e.not_forfeits_self settled⟩
    | offering event retries =>
      obtain rfl : settled = sent ++ [event] := haccounts
      have hroom : e.waitsForRoom = true := by simpa [waitsForRoom, hl] using hw
      have hgoing : e.loopEnded = false := by simp [loopEnded, hl]
      have hheld : e.HoldsBack false ↔ event.isOk = false := by
        simp [HoldsBack, hroom, holding?, hl]
      rw [Event.failures_concat, hheld, forfeits_concat_iff, hgoing]
      cases event.isOk with
      | true => exact .inl ⟨rfl, by simp, by simp⟩
      | false => exact .inr ⟨rfl, by simp⟩
    | stopped =>
      have hheld : ¬ e.HoldsBack false := by simp [HoldsBack, waitsForRoom, hl]
      have hended : e.loopEnded = true := by simp [loopEnded, hl]
      rcases haccounts with rfl | ⟨event, rfl⟩
      · exact .inl ⟨rfl, hheld, e.not_forfeits_self settled⟩
      · rw [Event.failures_concat, forfeits_concat_iff, hended]
        cases event.isOk with
        | true => exact .inl ⟨rfl, hheld, by simp⟩
        | false => exact .inr ⟨rfl, fun hb => absurd hb hheld, fun hn => absurd ⟨rfl, rfl⟩ hn⟩
    | _ => simp at hw

theorem ending_of_loopEnded {e : Endpoint C} (h : e.loopEnded = true) : e.ending = true := by
  obtain ⟨l, hl⟩ := Option.isSome_iff_exists.mp (loop_isSome_of_loopEnded h)
  rw [ending_of_loop hl, (loopEnded_of_loop hl).mp h]
  rfl

/-- A loop has ended because the endpoint was closed, or because nobody could receive any more. -/
theorem isClosed_or_receiverGone_of_loopEnded {e : Endpoint C} (h : e.Supplied)
    (hended : e.loopEnded = true) : e.isClosed = true ∨ e.receiverGone = true := by
  cases hc : e.isClosed with
  | true => exact .inl rfl
  | false =>
    cases hg : e.receiverGone with
    | true => exact .inr rfl
    | false =>
      obtain ⟨ch, hch, hkept⟩ := exists_channel_of_not_gone hg
      have hgoing : e.ending = false := (h hc ch hch hkept).2
      rw [ending_of_loopEnded hended] at hgoing
      cases hgoing

end Endpoint

namespace Scene

variable {C : Type} [Located C]

/-- When failures are counted. After every run of a fresh endpoint the counter shows how many
    failures have settled. Where the loop waits, that is the number of failures that entered the
    channel, and one more exactly if a failure waits for room or is forfeited; so the counter shows
    what has been reported, and what waits to be, exactly as long as nothing is forfeited. A failure
    is forfeited only where the endpoint has been closed or nobody can receive any more. -/
theorem failures_counted_when_settled (role : Role) (ipc : Bool) (config : Config)
    (ms : List (Move C)) :
    let s := start role ipc config
    let e := (s.after ms).endpoint
    let counted := e.tally.get .acceptFailures
    let reported := failures (s.sent ms)
    let forfeited := e.Forfeits (s.settled ms) (s.sent ms)
    counted = UInt64.ofNat (failures (s.settled ms)) ∧
    (e.waits = true →
      (counted = UInt64.ofNat reported ∨ counted = UInt64.ofNat (reported + 1)) ∧
      (counted = UInt64.ofNat (reported + 1) ↔ e.HoldsBack false ∨ forfeited) ∧
      (counted = UInt64.ofNat reported ∨
        counted = UInt64.ofNat (reported + 1) ∧ e.HoldsBack false ↔ ¬ forfeited)) ∧
    (forfeited → e.isClosed = true ∨ e.receiverGone = true) := by
  intro s e counted reported forfeited
  have hbooks : Endpoint.Books s.endpoint e (s.history ms) (s.wasted ms) :=
    s.books_after ms (Endpoint.sound_create role ipc config) (fun l hl => by cases hl)
  have hcounted : counted = UInt64.ofNat (failures (s.settled ms)) := by
    rw [← failures_history]
    exact (hbooks.tally .acceptFailures nofun nofun).trans (UInt64.zero_add _)
  refine ⟨hcounted, fun hw => ?_, fun hf => ?_⟩
  · have hne : UInt64.ofNat (reported + 1) ≠ UInt64.ofNat reported :=
      Counter.ofNat_succ_ne reported
    rcases (delivered_after role ipc config ms).failures_of_waits hw with
      ⟨hsame, hheld, hforfeited⟩ | ⟨hmore, hheld⟩
    · have hreported : counted = UInt64.ofNat reported := hcounted.trans (congrArg _ hsame)
      refine ⟨.inl hreported, ⟨fun h => ?_, ?_⟩, fun _ => hforfeited, fun _ => .inl hreported⟩
      · exact absurd (h.symm.trans hreported) hne
      · intro h
        exact absurd h (not_or.mpr ⟨hheld, hforfeited⟩)
    · have hreported : counted = UInt64.ofNat (reported + 1) := hcounted.trans (congrArg _ hmore)
      have hnot : counted ≠ UInt64.ofNat reported := fun h => hne (hreported.symm.trans h)
      refine ⟨.inr hreported, ⟨fun _ => ?_, fun _ => hreported⟩, ?_⟩
      · by_cases hf : forfeited
        · exact .inr hf
        · exact .inl (hheld.mpr hf)
      · rw [or_iff_right hnot, and_iff_right hreported]
        exact hheld
  · exact Endpoint.isClosed_or_receiverGone_of_loopEnded
      (supplied_after role ipc config ms) hf.1

theorem failures_counted_when_settled_of_clogging :
    let s : Scene Link := start .server false singlePlace
    let e := (s.after clogging).endpoint
    e.waits = true ∧ e.tally.get .acceptFailures = 1 ∧ failures (s.sent clogging) = 0 ∧
      e.HoldsBack false := by
  have hw : ((start .server false singlePlace).after clogging).endpoint.waits = true := by decide
  have hgoing : ((start .server false singlePlace).after clogging).endpoint.loopEnded = false := by
    decide
  have hcounted :
      ((start .server false singlePlace).after clogging).endpoint.tally.get .acceptFailures = 1 :=
    by decide
  have hsent : failures ((start .server false singlePlace).sent clogging) = 0 := by decide
  obtain ⟨-, hlaw, -⟩ := failures_counted_when_settled .server false singlePlace clogging
  obtain ⟨-, hiff, -⟩ := hlaw hw
  rw [hsent, hcounted] at hiff
  refine ⟨hw, hcounted, hsent, ?_⟩
  rcases hiff.mp rfl with hheld | hforfeited
  · exact hheld
  · rw [hforfeited.1] at hgoing
    cases hgoing

/-- Two accepts fail. The first failure takes the channel's only place, and while the second waits
    for room a connect ends, whose callback closes the endpoint. -/
def forfeiting : List (Move Link) :=
  let aborted : Except Failure Link :=
    .error (.io ⟨.connectionAborted, "scripted ConnectionAborted"⟩)
  [.bind "/run/app.sock", .listen true 0 (.ok "resolved:/run/app.sock"),
    .connect ⟨"/run/other.sock", 1⟩ none, .work, .work, .work, .acceptEnds aborted, .work, .work,
    .work, .work, .work, .work, .delayEnds, .work, .work, .work, .work, .work,
    .acceptEnds aborted, .work, .connectEnds 0 (.ok ⟨1000, none⟩) none, .close none, .work, .work]

/-- The second failure is counted, though it is never reported. -/
theorem failure_counted_without_report :
    let s : Scene Link := start .server false singlePlace
    let e := (s.after forfeiting).endpoint
    e.waits = true ∧ e.isClosed = true ∧ e.waitsForRoom = false ∧
      failures (s.sent forfeiting) = 1 ∧ e.tally.get .acceptFailures = 2 := by
  decide

end Scene

end LocalEndpoint
