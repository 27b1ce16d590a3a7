import LocalEndpoint.Proofs.Closing
import LocalEndpoint.Proofs.Delivery
import LocalEndpoint.Proofs.Listening
import LocalEndpoint.Proofs.Scene.Crowd
import Mathlib.Data.List.Perm.Basic

/-! The end of what can be received. Two things end it, the close and the loss of the sending end,
    and the second shows only after the first: as long as the endpoint is open and the receiving end
    is there, the loop neither drops the sending end nor is about to (`Supplied`). So a look at an
    open endpoint's channel finds the oldest event or waits, a look after the close finds the end,
    and a stream, which stops looking at the first end, gives what looking on would have given.

    A reader that another caller overtakes between its look at the endpoint and its look at the
    channel may still find an event after the close, but only that one. -/

namespace LocalEndpoint

namespace Receipt

variable {α : Type}

def item? : Receipt α → Option α
  | .item a => some a
  | _ => none

/-- What is given up to the first end, and that end. -/
def untilEnd : List (Receipt α) → List (Receipt α)
  | [] => []
  | .ended :: _ => [.ended]
  | r :: rs => r :: untilEnd rs

theorem untilEnd_cons_of_ne_ended {r : Receipt α} (h : r ≠ .ended) (rs : List (Receipt α)) :
    untilEnd (r :: rs) = r :: untilEnd rs := by
  cases r with
  | ended => exact absurd rfl h
  | _ => rfl

end Receipt

theorem Occurrence.received?_of_byLoop {C : Type} {o : Occurrence C} (h : o.byLoop = true) :
    o.received? = none := by
  cases o <;> first | rfl | cases h

/-- The same move where `reader` does the looking. -/
def Move.through {C : Type} (reader : Reader) : Move C → Move C
  | .poll _ => .poll reader
  | m => m

namespace Endpoint

variable {C : Type}

/-- As long as the endpoint is open and the receiving end is there, so is the sending end, and the
    loop is not about to drop it. -/
def Supplied (e : Endpoint C) : Prop :=
  e.isClosed = false → ∀ ch ∈ e.channel, ch.custody ≠ .dropped →
    ch.sending = true ∧ e.ending = false

theorem receiverTaken_iff {e : Endpoint C} :
    e.receiverTaken = true ↔ ∃ ch, e.channel = some ch ∧ ch.custody = .taken := by
  cases hch : e.channel <;> simp [receiverTaken, hch]

/-! ### The sending end -/

theorem Piece.supplied [Located C] {e f : Endpoint C} {l : AcceptLoop C}
    {os : List (Occurrence C)} (hp : Piece e l l.station f os) (hl : e.loop = some l)
    (he : e.Supplied) : f.Supplied := by
  intro ho ch' hch' hd
  rw [hp.isClosed_eq] at ho
  obtain ⟨ch, hch, hcustody, hsending⟩ := hp.ends ch' hch'
  obtain ⟨hsend, hgoing⟩ := he ho ch hch (hcustody ▸ hd)
  have hstation : l.station.ends = false := (ending_of_loop hl).symm.trans hgoing
  refine ⟨(hsending hstation).trans hsend, ?_⟩
  generalize l.station = s at hp hstation
  cases hp with
  | leave _ hc | discard _ hc => rw [hc] at ho; cases ho
  | forsake hgone =>
    -- The loop stops for want of a receiving end, but there is one.
    rw [hcustody] at hd
    simp only [receiverGone, Option.mem_def.mp hch, Channel.abandoned, beq_iff_eq] at hgone
    exact absurd hgone hd
  | stop | rest => cases hstation
  | await => exact hgoing
  | @enter _ retries | @send _ retries => cases retries <;> rfl
  | _ => rfl

/-- No move takes the sending end away from a receiving end of an open endpoint. -/
theorem Change.supplied [Located C] {e f : Endpoint C} {m : Move C} {os : List (Occurrence C)}
    (h : Change e m f os) (he : e.Supplied) : f.Supplied := by
  cases h with
  | aside _ hb =>
    intro ho ch hch hd
    rw [hb.closed] at ho
    rw [hb.channel] at hch
    rw [ending_congr hb.loop]
    exact he ho ch hch hd
  | receiving _ _ _ hr =>
    intro ho ch' hch' hd
    obtain ⟨ch, hch, hsending, hcustody⟩ := hr.ends ch' hch'
    have hkept : ch.custody ≠ .dropped := by
      rcases hcustody with hsame | hdropped | ⟨hstored, -⟩
      · rwa [← hsame]
      · exact absurd hdropped hd
      · rw [hstored]; nofun
    rw [hsending]
    exact he ho ch hch hkept
  | opening =>
    intro _ ch hch _
    cases hch
    exact ⟨rfl, rfl⟩
  | closing => exact nofun
  | piece hl hs hp => exact (hs ▸ hp).supplied hl he
  | answered hl hs | rung hl hs =>
    intro ho ch hch hd
    exact ⟨(he ho ch hch hd).1, rfl⟩
  | _ => exact he

/-- A look at the channel of an open endpoint finds the oldest event, or nothing yet. -/
theorem Supplied.poll_fst {e : Endpoint C} (he : e.Supplied) (ho : e.isClosed = false)
    {ch : Channel (Event C)} (hch : e.channel = some ch) (ht : ch.custody = .taken) :
    e.poll.1 = ch.buffer.toList.head?.elim .pending .item := by
  have hkept : ch.custody ≠ .dropped := by simp [ht]
  have hsend : ch.sending = true := (he ho ch hch hkept).1
  simp [poll, hch, Channel.receive_fst, hsend]

theorem Supplied.poll_ne_ended {e : Endpoint C} (he : e.Supplied) (ho : e.isClosed = false)
    (ht : e.receiverTaken = true) : e.poll.1 ≠ .ended := by
  rcases receiverTaken_iff.mp ht with ⟨ch, hch, htaken⟩
  rw [he.poll_fst ho hch htaken]
  cases ch.buffer.toList.head? <;> simp

/-- Only the close makes an attempt to receive find the end. -/
theorem Supplied.isClosed_of_ended {e : Endpoint C} (he : e.Supplied)
    (ht : e.receiverTaken = true) (hend : e.receive.1 = .ended) : e.isClosed = true := by
  cases hc : e.isClosed with
  | true => rfl
  | false =>
    have hpoll : e.poll.1 = .ended := by simpa [receive, hc] using hend
    exact absurd hpoll (he.poll_ne_ended hc ht)

/-- Nobody is given the receiving end of a closed endpoint. -/
theorem Change.receiverTaken_eq_false [Located C] {e f : Endpoint C} {m : Move C}
    {os : List (Occurrence C)} (h : Change e m f os) (hs : e.Sound) (hc : e.isClosed = true)
    (ht : e.receiverTaken = false) : f.receiverTaken = false := by
  refine Bool.eq_false_iff.mpr ?_
  intro hf
  rcases receiverTaken_iff.mp hf with ⟨ch', hch', htaken⟩
  rcases h.custody ch' hch' with ⟨ho, -⟩ | ⟨ch, hch, hsame | hdropped | ⟨hstored, -⟩⟩
  · rw [hc] at ho; cases ho
  · rw [receiverTaken_iff.mpr ⟨ch, hch, hsame ▸ htaken⟩] at ht; cases ht
  · rw [htaken] at hdropped; cases hdropped
  · exact (hs.vacant (isListening_of_isClosed hc)).2.2 ch hch hstored

end Endpoint

/-! ### Looking -/

namespace Scene

variable {C : Type} [Located C]

omit [Located C] in
/-- What a look for an event finds. -/
def looks (s : Scene C) : Move C → List (Receipt (Event C))
  | .poll _ => if s.endpoint.receiverTaken then [s.endpoint.receive.1] else []
  | _ => []

theorem supplied_after (role : Role) (ipc : Bool) (config : Config) (ms : List (Move C)) :
    ((start role ipc config).after ms).endpoint.Supplied :=
  Runs.induction after (P := fun s => s.endpoint.Supplied) (fun _ ch hch => by cases hch)
    (fun t m h => (t.change_step m).supplied h) ms

/-- What a reader is given is what its look finds. -/
theorem received_step (s : Scene C) (m : Move C) :
    (s.step m).2.filterMap Occurrence.received? = (s.looks m).filterMap Receipt.item? := by
  by_cases hr : m.receives = true
  · cases m with
    | poll reader =>
      rw [step, poll, looks]
      split
      · cases hfound : s.endpoint.receive.1 with
        | item event =>
          cases reader with
          | direct | stream => rfl
          | dispatcher panics => cases panics <;> rfl
        | pending => rfl
        | ended => cases reader <;> rfl
      · rfl
    | takeReceiver | dropReceiver => rfl
    | _ => cases hr
  have hnone : s.looks m = [] := by cases m <;> first | rfl | exact absurd rfl hr
  rw [hnone, List.filterMap_nil]
  have hc := s.change_step m
  generalize (s.next m).endpoint = f, (s.step m).2 = os at hc
  cases hc with
  | aside _ _ ho | refusal _ ho | opening _ _ _ ho | closing _ ho =>
    exact (filterMap_eq_nil_of_not_onAcceptPath ho).2
  | receiving hm => exact absurd hm hr
  | piece _ _ hp =>
    rw [List.filterMap_eq_nil_iff]
    intro o ho
    exact Occurrence.received?_of_byLoop (hp.byLoop o ho)
  | _ => rfl

theorem received_history (s : Scene C) (ms : List (Move C)) :
    (s.history ms).filterMap Occurrence.received? =
      (gather next looks s ms).filterMap Receipt.item? := by
  rw [history, gather_hom _ List.filterMap_nil fun _ _ => List.filterMap_append,
    gather_hom _ List.filterMap_nil fun _ _ => List.filterMap_append]
  simp only [received_step]

/-- Once the receiving end of a closed endpoint is gone, nobody looks any more. -/
theorem gather_looks_eq_nil (s : Scene C) (ms : List (Move C)) (hs : s.endpoint.Sound)
    (hc : s.endpoint.isClosed = true) (ht : s.endpoint.receiverTaken = false) :
    gather next looks s ms = [] := by
  induction ms generalizing s with
  | nil => rfl
  | cons m ms ih =>
    have hnone : s.looks m = [] := by
      cases m with
      | poll reader => rw [looks, ht]; rfl
      | _ => rfl
    have hm := s.change_step m
    rw [gather, hnone, List.nil_append]
    exact ih (s.next m) (s.sound_next m hs) (hm.isClosed hc) (hm.receiverTaken_eq_false hs hc ht)

omit [Located C] in
theorem looks_poll (s : Scene C) (reader : Reader) (ht : s.endpoint.receiverTaken = true) :
    s.looks (.poll reader) = [s.endpoint.receive.1] := by simp [looks, ht]

/-- Who does not have the receiving end finds nothing out and changes nothing. -/
theorem poll_of_not_taken (s : Scene C) (reader : Reader)
    (ht : s.endpoint.receiverTaken = false) :
    s.looks (.poll reader) = [] ∧ s.next (.poll reader) = s := by
  simp [looks, next, step, poll, ht]

/-- Until the end a stream does what a direct reader does. -/
theorem next_poll_stream_of_ne_ended (s : Scene C) (ht : s.endpoint.receiverTaken = true)
    (hne : s.endpoint.receive.1 ≠ .ended) :
    s.next (.poll .stream) = s.next (.poll .direct) := by
  cases hfound : s.endpoint.receive.1 with
  | ended => exact absurd hfound hne
  | item event => simp [next, step, poll, ht, hfound]
  | pending => simp [next, step, poll, ht, hfound]

/-- At the end a stream lets go of the receiving end. -/
theorem receiverTaken_next_poll_stream (s : Scene C) (hend : s.endpoint.receive.1 = .ended) :
    (s.next (.poll .stream)).endpoint.receiverTaken = false := by
  cases ht : s.endpoint.receiverTaken with
  | false =>
    rw [(s.poll_of_not_taken .stream ht).2]
    exact ht
  | true =>
    have hsame : s.endpoint.receive.2 = s.endpoint := receive_eq_self (by simp [hend])
    have hnext : (s.next (.poll .stream)).endpoint = s.endpoint.dropReceiver := by
      simp [next, step, poll, ht, hend, hsame]
    rw [hnext]
    cases hch : s.endpoint.channel <;>
      simp [Endpoint.receiverTaken, Endpoint.dropReceiver, Endpoint.onChannel, hch, Channel.abandon]

/-- A stream gives what looking on would give, up to the first end. -/
theorem looks_through_stream (s : Scene C) (ms : List (Move C)) (hs : s.endpoint.Sound)
    (he : s.endpoint.Supplied) :
    gather next looks s (ms.map (.through .stream)) =
      Receipt.untilEnd (gather next looks s (ms.map (.through .direct))) := by
  induction ms generalizing s with
  | nil => rfl
  | cons m ms ih =>
    have hrest (t : Move C) := ih (s.next t) (s.sound_next t hs) ((s.change_step t).supplied he)
    rw [List.map_cons, List.map_cons, gather, gather]
    by_cases hp : ∃ reader, m = .poll reader
    · rcases hp with ⟨reader, rfl⟩
      rw [Move.through, Move.through]
      cases ht : s.endpoint.receiverTaken with
      | false =>
        rcases s.poll_of_not_taken .stream ht with ⟨hnone, hnext⟩
        rcases s.poll_of_not_taken .direct ht with ⟨hnone', hnext'⟩
        rw [hnone, hnone', hnext, hnext']
        exact ih s hs he
      | true =>
        rw [s.looks_poll .stream ht, s.looks_poll .direct ht, List.singleton_append,
          List.singleton_append]
        by_cases hend : s.endpoint.receive.1 = .ended
        · -- The stream lets go here, so the two runs differ from now on, but nobody sees it.
          have hc : s.endpoint.isClosed = true := he.isClosed_of_ended ht hend
          have hgone := s.receiverTaken_next_poll_stream hend
          have hquiet := gather_looks_eq_nil (s.next (.poll .stream)) (ms.map (.through .stream))
            (s.sound_next _ hs) ((s.change_step _).isClosed hc) hgone
          rw [hquiet, hend]
          rfl
        · rw [Receipt.untilEnd_cons_of_ne_ended hend, s.next_poll_stream_of_ne_ended ht hend,
            hrest (.poll .direct)]
    have hsame (reader : Reader) : m.through reader = m := by
      cases m with
      | poll reader => exact absurd ⟨reader, rfl⟩ hp
      | _ => rfl
    have hnone : s.looks m = [] := by
      cases m with
      | poll reader => exact absurd ⟨reader, rfl⟩ hp
      | _ => rfl
    rw [hsame, hsame, hnone]
    exact hrest m

/-- Whoever has the receiving end finds the end exactly where the endpoint is closed, else the
    oldest event that was sent and not received, or nothing yet. -/
theorem receive_after (role : Role) (ipc : Bool) (config : Config) (ms : List (Move C)) :
    let s := start role ipc config
    let e := (s.after ms).endpoint
    e.receiverTaken = true → e.receive.1 =
      if e.isClosed then .ended
      else ((s.sent ms).drop (s.received ms).length).head?.elim .pending .item := by
  intro s e ht
  cases hc : e.isClosed with
  | true => rw [Endpoint.receive, hc]; rfl
  | false =>
    rcases Endpoint.receiverTaken_iff.mp ht with ⟨ch, hch, htaken⟩
    have hsupplied : e.Supplied := supplied_after role ipc config ms
    have hsent : s.sent ms = s.received ms ++ ch.buffer.toList :=
      (delivered_after role ipc config ms).inChannel ch hch (by simp [htaken])
    rw [Endpoint.receive, hc, if_neg Bool.false_ne_true, if_neg Bool.false_ne_true,
      hsupplied.poll_fst hc hch htaken, hsent, List.drop_left]

end Scene

/-! ### Looking while others act -/

namespace Remarks

variable {C : Type}

/-- What is told gives nobody an event. -/
def Idle (r : Remarks C) : Prop := r.list.filterMap Occurrence.received? = []

theorem idle_ofAside {os : List (Occurrence C)} (h : ∀ o ∈ os, o.onAcceptPath = false) :
    (ofAside os h).Idle := (Scene.filterMap_eq_nil_of_not_onAcceptPath h).2

theorem Idle.panicking {r : Remarks C} (h : r.Idle) (callback : Callback)
    (panics : Option Payload) : (r.panicking callback panics).Idle := by
  have hpanic := (Scene.filterMap_eq_nil_of_not_onAcceptPath
    (Scene.onAcceptPath_panicOf (C := C) callback panics)).2
  rw [Idle, Remarks.panicking, List.filterMap_append, h, hpanic]
  rfl

theorem idle_ofEvent (event : Event C) (reader : Reader) : (ofEvent event reader).Idle := by
  cases reader with
  | direct | stream => rfl
  | dispatcher panics =>
    have hinvoked : (⟨[.invoked event], by simp⟩ : Remarks C).Idle := rfl
    exact hinvoked.panicking .onConnection panics

end Remarks

namespace Errand

variable {C : Type} [Located C]

/-- Whether a reader that found the endpoint open is about to look at the channel. -/
def polls : Errand C → Bool
  | .poll _ => true
  | _ => false

/-- A reader gives up only where the endpoint is closed. -/
theorem isClosed_of_leave {e : Endpoint C} (he : e.Supplied) {errand : Errand C} {reader : Reader}
    (h : (errand.step e).2.2 = some (.leave reader)) : (errand.step e).1.isClosed = true := by
  cases errand with
  | receive | look =>
    simp only [step] at h ⊢
    split at h
    · next hc => exact hc
    · cases h
  | poll reader =>
    rw [step] at h ⊢
    split at h
    · next ht =>
      cases hc : e.isClosed with
      | true =>
        rw [if_pos ht]
        have hpoll : e.poll.2.isClosed = true := by rw [poll_snd]; exact hc
        cases hr : e.poll.1 <;> simpa [hr] using hpoll
      | false =>
        have hne := he.poll_ne_ended hc ht
        cases hr : e.poll.1 with
        | ended => exact absurd hr hne
        | item | pending => simp [hr] at h
    · cases h
  | connect =>
    rw [step] at h
    split at h <;> cases h
  | leave reader => cases reader <;> cases h
  | _ => cases h

theorem idle_of_tell {e : Endpoint C} {errand : Errand C} {remarks : Remarks C}
    (h : (errand.step e).2.2 = some (.tell remarks)) : remarks.Idle := by
  cases errand with
  | connect a panics =>
    rw [step] at h
    split at h
    · cases h
      exact (Remarks.idle_ofAside _).panicking _ _
    · cases h
  | land a outcome panics =>
    cases h
    exact (Remarks.idle_ofAside _).panicking _ _
  | close | fchmod =>
    cases h
    exact Remarks.idle_ofAside _
  | receive | look =>
    simp only [step] at h
    split at h <;> cases h
  | poll reader =>
    rw [step] at h
    split at h
    · cases hr : e.poll.1 with
      | item event =>
        simp only [hr, Option.some.injEq, tell.injEq] at h
        exact h ▸ Remarks.idle_ofEvent event reader
      | pending | ended => simp [hr] at h
    · cases h
  | leave reader => cases reader <;> cases h
  | _ => cases h

/-- Once the endpoint is closed, only a look that was about to be taken can find an event, and no
    further look is taken. -/
theorem received_le {e : Endpoint C} (hc : e.isClosed = true) {errand : Errand C}
    (ht : ∀ remarks, errand = .tell remarks → remarks.Idle) :
    ((errand.step e).2.1.filterMap Occurrence.received?).length +
      (errand.step e).2.2.toList.countP polls ≤ if errand.polls then 1 else 0 := by
  cases errand with
  | connect a panics => simp [step, hc, polls]
  | receive | look => simp [step, hc, polls]
  | poll reader =>
    rw [step]
    split
    · cases hr : e.poll.1 <;> simp [polls, Occurrence.received?]
    · simp
  | leave reader => cases reader <;> exact Nat.zero_le _
  | tell remarks =>
    have hidle : remarks.list.filterMap Occurrence.received? = [] := ht remarks rfl
    simp [step, hidle]
  | _ => simp [step, polls, Occurrence.received?]

end Errand

namespace Crowd

variable {C : Type} [Located C]

/-- The events that readers are given in a turn. -/
def received (s : Crowd C) (t : Turn C) : List (Event C) :=
  (s.step t).2.filterMap Occurrence.received?

/-- Who has given up has found the endpoint closed, and who tells of something is given nothing. -/
structure Orderly (s : Crowd C) : Prop where
  supplied : s.endpoint.Supplied
  left : ∀ reader, .leave reader ∈ s.errands → s.endpoint.isClosed = true
  idle : ∀ remarks, .tell remarks ∈ s.errands → remarks.Idle

theorem Orderly.next {s : Crowd C} (h : s.Orderly) (t : Turn C) : (s.next t).Orderly := by
  rcases s.change_step t with ⟨os, hc, -⟩
  refine ⟨hc.supplied h.supplied, ?_, ?_⟩
  · intro reader hmem
    rcases s.mem_errands_next t hmem with hold | hbegins | ⟨_, _, _, hland⟩ | ⟨_, _, hstep, he⟩
    · exact hc.isClosed (h.left reader hold)
    · cases hbegins
    · cases hland
    · rw [he]
      exact Errand.isClosed_of_leave h.supplied hstep
  · intro remarks hmem
    rcases s.mem_errands_next t hmem with hold | hbegins | ⟨_, _, _, hland⟩ | ⟨_, _, hstep, -⟩
    · exact h.idle remarks hold
    · cases hbegins
    · cases hland
    · exact Errand.idle_of_tell hstep

theorem orderly_after (role : Role) (ipc : Bool) (config : Config) (ts : List (Turn C)) :
    ((start role ipc config).after ts).Orderly := by
  induction ts using List.reverseRecOn with
  | nil =>
    refine ⟨?_, nofun, nofun⟩
    intro _ ch hch
    cases hch
  | append_singleton ts t ih =>
    rw [Runs.concat after]
    exact ih.next t

omit [Located C] in
theorem countP_eraseIdx {errands : List (Errand C)} {i : Nat} {errand : Errand C}
    (hi : errands[i]? = some errand) :
    errands.countP Errand.polls =
      (errands.eraseIdx i).countP Errand.polls + if errand.polls then 1 else 0 := by
  rcases List.getElem?_eq_some_iff.mp hi with ⟨hlt, rfl⟩
  rw [← (List.getElem_cons_eraseIdx_perm hlt).countP_eq Errand.polls, List.countP_cons]

/-- Once the endpoint is closed, each turn uses up the looks that were about to be taken. -/
theorem received_next (s : Crowd C) (t : Turn C) (h : s.Orderly)
    (hc : s.endpoint.isClosed = true) :
    (s.received t).length + (s.next t).errands.countP Errand.polls ≤
      s.errands.countP Errand.polls := by
  cases t with
  | start errand =>
    rw [received, next, step]
    split
    · next hbegins =>
      have hno : errand.polls = false := by cases errand <;> first | rfl | cases hbegins
      simp [List.countP_append, hno]
    · simp
  | act i =>
    rw [received, next, step]
    cases hi : s.errands[i]? with
    | none => simp
    | some errand =>
      have hmem : errand ∈ s.errands := List.mem_of_getElem? hi
      have hstep := errand.received_le hc fun remarks he => h.idle remarks (he ▸ hmem)
      have herase := countP_eraseIdx hi
      cases hr : (errand.step s.endpoint).2.2 with
      | none =>
        simp only [hr, Option.toList_none, List.countP_nil] at hstep ⊢
        omega
      | some rest =>
        have hlt : i < s.errands.length := (List.getElem?_eq_some_iff.mp hi).1
        have hset := countP_eraseIdx (List.getElem?_set_self (a := rest) hlt)
        rw [List.eraseIdx_set_eq] at hset
        simp only [hr, Option.toList_some, List.countP_singleton] at hstep ⊢
        omega
  | answer i outcome =>
    rw [received, next, step]
    split
    · next a panics hi =>
      have hlt : i < s.errands.length := (List.getElem?_eq_some_iff.mp hi).1
      have herase := countP_eraseIdx hi
      have hset := countP_eraseIdx
        (List.getElem?_set_self (a := Errand.land a outcome panics) hlt)
      rw [List.eraseIdx_set_eq] at hset
      simp only [Errand.polls, Bool.false_eq_true, if_false, Nat.add_zero] at herase hset
      simp [herase, hset]
    · simp
  | move m =>
    rw [received, next, step]
    split
    · next hgo =>
      have hnone : (⟨s.endpoint, []⟩ : Scene C).looks m = [] := by
        cases m <;> first | rfl | cases hgo
      simp [Scene.received_step, hnone]
    · simp

/-- Whatever readers are given after the close was about to be looked at when it came. -/
theorem length_received_le (s : Crowd C) (ts : List (Turn C)) (h : s.Orderly)
    (hc : s.endpoint.isClosed = true) :
    (gather next received s ts).length ≤ s.errands.countP Errand.polls := by
  induction ts generalizing s with
  | nil => exact Nat.zero_le _
  | cons t ts ih =>
    rcases s.change_step t with ⟨os, hm, -⟩
    have hrest := ih (s.next t) (h.next t) (hm.isClosed hc)
    have hnow := s.received_next t h hc
    rw [gather, List.length_append]
    omega

end Crowd

/-! ### The end -/

/-- What can be received ends exactly with the endpoint. After every run of a fresh endpoint,
    whoever has the receiving end finds the end if and only if the endpoint is closed; before that
    it finds the oldest event that was sent and not received if there is one, else nothing yet.
    Readers are given what their looks find, and a stream finds what a reader that goes on looking
    would find, up to the first end. However callers come between the steps of others, a reader that
    gives up has found the endpoint closed, and once it is closed no more events are received than
    there were readers about to look at the channel just then. -/
theorem receiving_ends_at_close {C : Type} [Located C] (role : Role) (ipc : Bool)
    (config : Config) :
    (∀ ms : List (Move C),
      let s : Scene C := .start role ipc config
      let t := s.after ms
      let waiting := (s.sent ms).drop (s.received ms).length
      (t.endpoint.receiverTaken = true → t.endpoint.receive.1 =
        if t.endpoint.isClosed then .ended else waiting.head?.elim .pending .item) ∧
      ∀ ns : List (Move C),
        (t.history ns).filterMap Occurrence.received? =
          (gather Scene.next Scene.looks t ns).filterMap Receipt.item? ∧
        gather Scene.next Scene.looks t (ns.map (.through .stream)) =
          Receipt.untilEnd (gather Scene.next Scene.looks t (ns.map (.through .direct)))) ∧
    (∀ ts : List (Turn C),
      let s : Crowd C := (Crowd.start role ipc config).after ts
      (∀ reader, .leave reader ∈ s.errands → s.endpoint.isClosed = true) ∧
      (s.endpoint.isClosed = true → ∀ us : List (Turn C),
        (gather Crowd.next Crowd.received s us).length ≤ s.errands.countP Errand.polls)) := by
  refine ⟨?_, ?_⟩
  · intro ms s t waiting
    refine ⟨Scene.receive_after role ipc config ms, ?_⟩
    intro ns
    have hs : t.endpoint.Sound := Scene.sound_after role ipc config ms
    have he : t.endpoint.Supplied := Scene.supplied_after role ipc config ms
    exact ⟨t.received_history ns, t.looks_through_stream ns hs he⟩
  · intro ts s
    have h : s.Orderly := Crowd.orderly_after role ipc config ts
    refine ⟨h.left, ?_⟩
    intro hc us
    exact s.length_received_le us h hc

/-- A close overtakes a reader that is about to look at a channel with an event in it. -/
def overtakenReader : Crowd Link :=
  (Crowd.start .server false Scene.fixedBacklog).after
    (Scene.busy.map .move ++
      [.start (.receive .direct), .act 0, .act 0, .start (.close none), .act 1])

theorem receiving_ends_at_close_of_overtaken :
    let s : Scene Link := .start .server false Scene.fixedBacklog
    let t := s.after Scene.busy
    let waiting := (s.sent Scene.busy).drop (s.received Scene.busy).length
    (t.endpoint.receiverTaken = true ∧ waiting.length = 1 ∧ t.endpoint.receive.1 =
      if t.endpoint.isClosed then .ended else waiting.head?.elim .pending .item) ∧
    overtakenReader.endpoint.isClosed = true ∧
    overtakenReader.errands.countP Errand.polls = 1 ∧
    (overtakenReader.received (.act 0)).length = 1 ∧
    ∀ us, (gather Crowd.next Crowd.received overtakenReader us).length ≤
      overtakenReader.errands.countP Errand.polls := by
  intro s t waiting
  have ht : t.endpoint.receiverTaken = true := by decide
  have hc : overtakenReader.endpoint.isClosed = true := by decide
  have hlaw := receiving_ends_at_close (C := Link) .server false Scene.fixedBacklog
  exact ⟨⟨ht, by decide, (hlaw.1 Scene.busy).1 ht⟩, hc, by decide, by decide, (hlaw.2 _).2 hc⟩

end LocalEndpoint
