import LocalEndpoint.Proofs.Streaming
import Mathlib.Algebra.Order.BigOperators.Group.List
import Mathlib.Algebra.Order.Ring.Nat

/-! Callbacks after the close. A reader looks at the endpoint, then at the channel, and a dispatcher
    calls back after that, each time without the lock. So a close between two of these steps does
    not stop what follows: an event that a reader was about to find, or that a dispatcher has in
    hand, is still given to the consumer (`callback_begins_after_close`). Nothing else is: how many
    callbacks can still begin can be read off the errands under way (`Crowd.callbacks`), no turn
    adds to it, and whoever begins to receive later finds the endpoint closed. -/

namespace LocalEndpoint

/-- The event of the callback that begins. -/
def Occurrence.invoked? {C : Type} : Occurrence C → Option (Event C)
  | .invoked event => some event
  | _ => none

theorem Occurrence.invoked?_of_not_reachesConsumer {C : Type} {o : Occurrence C}
    (h : o.reachesConsumer = false) : o.invoked? = none := by
  cases o <;> first | rfl | cases h

theorem Occurrence.filterMap_invoked?_eq_nil {C : Type} {os : List (Occurrence C)}
    (h : ∀ o ∈ os, o.reachesConsumer = false) : os.filterMap invoked? = [] := by
  rw [List.filterMap_eq_nil_iff]
  intro o ho
  exact invoked?_of_not_reachesConsumer (h o ho)

namespace Endpoint

variable {C : Type}

/-- Whether a look at the channel finds an event. -/
def offers (e : Endpoint C) : Bool := e.receiverTaken && decide (e.buffered ≠ 0)

theorem offers_of_item {e : Endpoint C} (ht : e.receiverTaken = true) {event : Event C}
    (h : e.poll.1 = .item event) : e.offers = true := by
  rcases receiverTaken_iff.mp ht with ⟨ch, hch, -⟩
  have hitem : ch.receive.1 = .item event := by simpa [poll, hch] using h
  have hsize : ch.buffer.size ≠ 0 := by
    rw [Channel.size_of_receive (Prod.ext hitem rfl)]
    exact Nat.succ_ne_zero _
  simpa [offers, ht, buffered, hch] using hsize

theorem exists_item_of_offers {e : Endpoint C} (h : e.offers = true) :
    e.receiverTaken = true ∧ ∃ event, e.poll.1 = .item event := by
  obtain ⟨ht, hbuffered⟩ := Bool.and_eq_true_iff.mp h
  refine ⟨ht, ?_⟩
  rcases receiverTaken_iff.mp ht with ⟨ch, hch, -⟩
  have hne : ch.buffer.toList ≠ [] := by
    intro hnil
    simp [buffered, hch, Fifo.size_eq_length, hnil] at hbuffered
  obtain ⟨event, rest, hlist⟩ := List.exists_cons_of_ne_nil hne
  exact ⟨event, by simp [poll, hch, Channel.receive_fst, hlist]⟩

variable [Located C] {e f : Endpoint C} {m : Move C} {os : List (Occurrence C)}

/-- Nothing enters the channel of a closed endpoint. -/
theorem Change.buffered_le (h : Change e m f os) (hc : e.isClosed = true) :
    f.buffered ≤ e.buffered := by
  have hopen (ho : e.isClosed = false) : False := by rw [hc] at ho; cases ho
  cases h with
  | aside _ hb => exact Nat.le_of_eq (by rw [buffered, buffered, hb.channel])
  | receiving _ _ _ hr => exact hr.buffered_le
  | opening _ ho | closing ho => exact (hopen ho).elim
  | piece _ _ hp =>
    cases hp with
    | enter ho | send ho => exact (hopen ho).elim
    | stop => exact Nat.le_of_eq e.buffered_hangUp
    | _ => exact Nat.le_refl _
  | _ => exact Nat.le_refl _

theorem Change.offers_mono (h : Change e m f os) (hs : e.Sound) (hc : e.isClosed = true)
    (ho : f.offers = true) : e.offers = true := by
  obtain ⟨ht, hbuffered⟩ := Bool.and_eq_true_iff.mp ho
  have hmore : e.buffered ≠ 0 := by
    have hle := h.buffered_le hc
    simp only [ne_eq, decide_not, Bool.not_eq_true', decide_eq_false_iff_not] at hbuffered
    omega
  cases hte : e.receiverTaken with
  | true => simp [offers, hte, hmore]
  | false =>
    rw [h.receiverTaken_eq_false hs hc hte] at ht
    cases ht

/-- On a closed endpoint no move calls back. -/
theorem Change.invoked_eq_nil (h : Change e m f os) (hc : e.isClosed = true) :
    os.filterMap Occurrence.invoked? = [] := by
  refine Occurrence.filterMap_invoked?_eq_nil ?_
  cases h with
  | aside _ _ ho | refusal _ ho | opening _ _ _ ho | closing _ ho =>
    intro o hmem
    exact (Occurrence.not_onAcceptPath (ho o hmem)).2
  | receiving _ _ hcl => exact hcl hc
  | piece _ _ hp =>
    intro o hmem
    have hloop := hp.byLoop o hmem
    cases o <;> first | rfl | cases hloop
  | _ => exact List.forall_mem_nil _

end Endpoint

/-! ### One errand -/

namespace Errand

variable {C : Type}

/-- The events that a dispatcher has received, and is about to call back for. -/
def inHand : Errand C → List (Event C)
  | .tell remarks => remarks.list.filterMap Occurrence.invoked?
  | _ => []

/-- Whether a dispatcher is about to look at the channel. -/
def dispatches : Errand C → Bool
  | .poll (.dispatcher _) => true
  | _ => false

/-- How many callbacks can still begin once the endpoint is closed; `offers` tells whether a look at
    the channel finds an event. -/
def callbacks (offers : Bool) (errand : Errand C) : Nat :=
  errand.inHand.length + if offers && errand.dispatches then 1 else 0

theorem callbacks_mono {offers offers' : Bool} (h : offers' = true → offers = true)
    (errand : Errand C) : errand.callbacks offers' ≤ errand.callbacks offers := by
  cases offers' with
  | true => exact Nat.le_of_eq (by rw [h rfl])
  | false => simp [callbacks]

theorem callbacks_tell (offers : Bool) (remarks : Remarks C) :
    (tell remarks).callbacks offers = (tell remarks).inHand.length := by
  simp [callbacks, dispatches]

theorem callbacks_of_begins {errand : Errand C} (h : errand.begins = true) (offers : Bool) :
    errand.callbacks offers = 0 := by
  cases errand <;> first | cases h; done | simp [callbacks, inHand, dispatches]

theorem callbacks_eq_zero {errand : Errand C} {offers : Bool} (hhand : errand.inHand = [])
    (hpolls : errand.polls = true → offers = false) : errand.callbacks offers = 0 := by
  have hno : (offers && errand.dispatches) = false := by
    cases errand with
    | poll reader => rw [hpolls rfl, Bool.false_and]
    | _ => exact Bool.and_false _
  rw [callbacks, hhand, hno]
  rfl

theorem inHand_ofAside {os : List (Occurrence C)} (h : ∀ o ∈ os, o.onAcceptPath = false) :
    (tell (Remarks.ofAside os h)).inHand = [] := by
  refine Occurrence.filterMap_invoked?_eq_nil ?_
  intro o ho
  exact (Occurrence.not_onAcceptPath (h o ho)).2

theorem inHand_panicking (r : Remarks C) (callback : Callback) (panics : Option Payload) :
    (tell (r.panicking callback panics)).inHand = (tell r).inHand := by
  rw [inHand, Remarks.panicking, List.filterMap_append,
    Scene.filterMap_panicOf callback panics fun _ => rfl, List.append_nil]
  rfl

theorem inHand_ofEvent (event : Event C) (reader : Reader) :
    (tell (Remarks.ofEvent event reader)).inHand =
      if (poll reader : Errand C).dispatches then [event] else [] := by
  cases reader with
  | direct | stream => rfl
  | dispatcher panics => exact inHand_panicking _ .onConnection panics

/-- Each step of an errand on a closed endpoint uses up the callbacks that begin in it. -/
theorem invoked_step_le [Located C] {e : Endpoint C} (hc : e.isClosed = true) (errand : Errand C)
    (offers : Bool) :
    ((errand.step e).2.1.filterMap Occurrence.invoked?).length +
      (errand.step e).2.2.elim 0 (callbacks offers) ≤ errand.callbacks e.offers := by
  -- What is told but for an event in hand calls nobody back.
  have htold {remarks : Remarks C} {n : Nat} (hnone : (tell remarks).inHand = []) :
      (([] : List (Occurrence C)).filterMap Occurrence.invoked?).length +
        (some (tell remarks)).elim 0 (callbacks offers) ≤ n := by
    change 0 + (tell remarks).callbacks offers ≤ n
    rw [callbacks_tell, hnone]
    exact Nat.zero_le _
  cases errand with
  | connect a panics =>
    rw [step, dif_pos hc]
    exact htold ((inHand_panicking ..).trans (inHand_ofAside _))
  | land => exact htold ((inHand_panicking ..).trans (inHand_ofAside _))
  | close | fchmod => exact htold (inHand_ofAside _)
  | dial | ring => simp [step, callbacks, inHand, dispatches, Occurrence.invoked?]
  | receive | look => simp [step, hc, callbacks, inHand, dispatches]
  | poll reader =>
    rw [step]
    split
    · next ht =>
      cases hr : e.poll.1 with
      | item event =>
        have hoffers := Endpoint.offers_of_item ht hr
        change 0 + (tell (Remarks.ofEvent event reader)).callbacks offers ≤ _
        rw [callbacks_tell, inHand_ofEvent, callbacks, hoffers]
        cases (poll reader : Errand C).dispatches <;> simp
      | pending | ended => simp [callbacks, inHand, dispatches]
    · exact Nat.zero_le _
  | leave reader => cases reader <;> exact Nat.zero_le _
  | tell remarks => exact Nat.le_of_eq (callbacks_tell _ remarks).symm

end Errand

/-! ### One turn -/

namespace Crowd

variable {C : Type} [Located C]

/-- The events for which a callback begins in a turn. -/
def invoked (s : Crowd C) (t : Turn C) : List (Event C) :=
  (s.step t).2.filterMap Occurrence.invoked?

omit [Located C] in
/-- How many callbacks can still begin once the endpoint is closed. -/
def callbacks (s : Crowd C) : Nat := (s.errands.map (·.callbacks s.endpoint.offers)).sum

omit [Located C] in
theorem sum_eraseIdx (g : Errand C → Nat) {errands : List (Errand C)} {i : Nat}
    {errand : Errand C} (hi : errands[i]? = some errand) :
    (errands.map g).sum = g errand + ((errands.eraseIdx i).map g).sum := by
  rcases List.getElem?_eq_some_iff.mp hi with ⟨hlt, rfl⟩
  have hperm := (List.getElem_cons_eraseIdx_perm hlt).map g
  rw [← hperm.sum_eq, List.map_cons, List.sum_cons]

omit [Located C] in
/-- How a sum over the callers changes when one of them goes on to something else. -/
theorem sum_set (g : Errand C → Nat) {errands : List (Errand C)} {i : Nat} {errand : Errand C}
    (hi : errands[i]? = some errand) (rest : Errand C) :
    ((errands.set i rest).map g).sum + g errand = (errands.map g).sum + g rest := by
  have hlt : i < errands.length := (List.getElem?_eq_some_iff.mp hi).1
  have herase := sum_eraseIdx g hi
  have hset := sum_eraseIdx g (List.getElem?_set_self (a := rest) hlt)
  rw [List.eraseIdx_set_eq] at hset
  omega

omit [Located C] in
theorem sum_callbacks_mono {offers offers' : Bool} (h : offers' = true → offers = true)
    (errands : List (Errand C)) :
    (errands.map (·.callbacks offers')).sum ≤ (errands.map (·.callbacks offers)).sum :=
  List.sum_le_sum fun errand _ => errand.callbacks_mono h

/-- On a closed endpoint each turn uses up the callbacks that begin in it. -/
theorem invoked_next_le (s : Crowd C) (t : Turn C) (hs : s.endpoint.Sound)
    (hc : s.endpoint.isClosed = true) :
    (s.invoked t).length + (s.next t).callbacks ≤ s.callbacks := by
  rcases s.change_step t with ⟨os, hm, -⟩
  have hoffers : (s.next t).endpoint.offers = true → s.endpoint.offers = true :=
    hm.offers_mono hs hc
  have hmono := sum_callbacks_mono hoffers (s.next t).errands
  -- It is enough to count as if a look still found what it would have found before.
  suffices hkept : (s.invoked t).length +
      ((s.next t).errands.map (·.callbacks s.endpoint.offers)).sum ≤ s.callbacks from
    Nat.le_trans (Nat.add_le_add_left hmono _) hkept
  clear hmono hoffers hm
  rw [invoked, next, callbacks]
  generalize hoffers : s.endpoint.offers = offers
  cases t with
  | start errand =>
    rw [step]
    split
    · next hbegins => simp [Errand.callbacks_of_begins hbegins]
    · simp
  | act i =>
    rw [step]
    cases hi : s.errands[i]? with
    | none => simp
    | some errand =>
      have hstep := errand.invoked_step_le hc offers
      rw [hoffers] at hstep
      cases hr : (errand.step s.endpoint).2.2 with
      | none =>
        have herase := sum_eraseIdx (·.callbacks offers) hi
        simp only [hr, Option.elim_none] at hstep ⊢
        omega
      | some rest =>
        have hset := sum_set (·.callbacks offers) hi rest
        simp only [hr, Option.elim_some] at hstep ⊢
        omega
  | answer i outcome =>
    rw [step]
    split
    · next a panics hi =>
      have hset := sum_set (·.callbacks offers) hi (.land a outcome panics)
      have hring : (Errand.ring a panics : Errand C).callbacks offers = 0 := by
        simp [Errand.callbacks, Errand.inHand, Errand.dispatches]
      have hland : (Errand.land a outcome panics).callbacks offers = 0 := by
        simp [Errand.callbacks, Errand.inHand, Errand.dispatches]
      simp only [List.filterMap_nil, List.length_nil]
      omega
    · simp
  | move m =>
    rw [step]
    split
    · have hnone := (Scene.change_step ⟨s.endpoint, []⟩ m).invoked_eq_nil hc
      simp [hnone]
    · simp

/-- Where a look finds nothing, a turn gives nobody an event. -/
theorem received_eq_nil (s : Crowd C) (t : Turn C) (h : s.Orderly)
    (hc : s.endpoint.isClosed = true) (ho : s.endpoint.offers = false) : s.received t = [] := by
  have hle := s.received_next t h hc
  cases t with
  | act i =>
    rw [received, step]
    cases hi : s.errands[i]? with
    | none => rfl
    | some errand =>
      have hnone : (errand.step s.endpoint).2.1.filterMap Occurrence.received? = [] := by
        cases errand with
        | poll reader =>
          rw [Errand.step]
          split
          · next ht =>
            cases hr : s.endpoint.poll.1 with
            | item event => rw [Endpoint.offers_of_item ht hr] at ho; cases ho
            | pending | ended => rfl
          · rfl
        | tell remarks => exact h.idle remarks (List.mem_of_getElem? hi)
        | connect a panics =>
          rw [Errand.step]
          split <;> rfl
        | leave reader => cases reader <;> rfl
        | _ => rfl
      cases hr : (errand.step s.endpoint).2.2 <;> simpa [hr] using hnone
  | start errand =>
    rw [received, step]
    split <;> rfl
  | answer i outcome =>
    rw [received, step]
    split <;> rfl
  | move m =>
    rw [received, step]
    split
    · next hgo =>
      have hnone : (⟨s.endpoint, []⟩ : Scene C).looks m = [] := by
        cases m <;> first | rfl | cases hgo
      simp [Scene.received_step, hnone]
    · rfl

/-! ### Runs -/

/-- The looks that can still find an event, once the endpoint is closed. -/
def chances (s : Crowd C) : Nat :=
  if s.endpoint.offers then s.errands.countP Errand.polls else 0

/-- Whatever happens after the close, no more events are received, and no more callbacks begin, than
    were on their way. -/
theorem length_gather_le (s : Crowd C) (ts : List (Turn C)) (h : s.Orderly)
    (hs : s.endpoint.Sound) (hc : s.endpoint.isClosed = true) :
    (gather next received s ts).length ≤ s.chances ∧
      (gather next invoked s ts).length ≤ s.callbacks := by
  induction ts generalizing s with
  | nil => exact ⟨Nat.zero_le _, Nat.zero_le _⟩
  | cons t ts ih =>
    rcases s.change_step t with ⟨os, hm, -⟩
    obtain ⟨hreceived, hinvoked⟩ := ih (s.next t) (h.next t) (s.sound_next t hs) (hm.isClosed hc)
    have hbegun := s.invoked_next_le t hs hc
    have hgiven : (s.received t).length + (s.next t).chances ≤ s.chances := by
      rw [chances, chances]
      cases ho : s.endpoint.offers with
      | true =>
        have hnow := s.received_next t h hc
        split
        · exact hnow
        · rw [if_pos rfl]
          omega
      | false =>
        have hoff : (s.next t).endpoint.offers = false := by
          cases hf : (s.next t).endpoint.offers with
          | false => rfl
          | true => rw [hm.offers_mono hs hc hf] at ho; cases ho
        rw [s.received_eq_nil t h hc ho, hoff]
        exact Nat.le_refl _
    rw [gather, gather, List.length_append, List.length_append]
    exact ⟨by omega, by omega⟩

theorem invoked_act {s : Crowd C} {i : Nat} {errand : Errand C}
    (hi : s.errands[i]? = some errand) (hhand : errand.inHand ≠ []) :
    gather next invoked s [.act i] = errand.inHand := by
  cases errand with
  | tell remarks =>
    rw [gather, gather, List.append_nil, invoked, step, hi]
    rfl
  | _ => exact absurd rfl hhand

theorem received_act {s : Crowd C} {i : Nat} {errand : Errand C}
    (hi : s.errands[i]? = some errand) (hpolls : errand.polls = true)
    (ho : s.endpoint.offers = true) : gather next received s [.act i] ≠ [] := by
  cases errand with
  | poll reader =>
    obtain ⟨ht, event, hitem⟩ := Endpoint.exists_item_of_offers ho
    rw [gather, gather, List.append_nil, received, step, hi]
    simp [Errand.step, ht, hitem, Occurrence.received?]
  | _ => cases hpolls

/-- Callbacks after the close. However callers come between the steps of others, once the endpoint
    is closed no more events are received than there are readers that have looked at it before and
    are about to look at the channel, if there is an event to find, and no more callbacks begin than
    there are events in the hands of dispatchers, and dispatchers among those readers. So nothing is
    received and no callback begins any more exactly if just then no dispatcher has an event in
    hand, and no reader is about to find one. -/
theorem callbacks_after_close (role : Role) (ipc : Bool) (config : Config) (ts : List (Turn C)) :
    let s := (start role ipc config).after ts
    s.endpoint.isClosed = true →
      (∀ us, (gather next received s us).length ≤ s.chances ∧
        (gather next invoked s us).length ≤ s.callbacks) ∧
      ((∀ us, gather next received s us = [] ∧ gather next invoked s us = []) ↔
        ∀ errand ∈ s.errands, errand.inHand = [] ∧
          (errand.polls = true → s.endpoint.offers = false)) := by
  intro s hc
  have h : s.Orderly := orderly_after role ipc config ts
  have hs : s.endpoint.Sound := sound_after role ipc config ts
  have hbound (us : List (Turn C)) := s.length_gather_le us h hs hc
  refine ⟨hbound, ?_, ?_⟩
  · intro hsilent errand hmem
    obtain ⟨i, hi⟩ := List.getElem?_of_mem hmem
    obtain ⟨hreceived, hinvoked⟩ := hsilent [.act i]
    refine ⟨?_, ?_⟩
    · by_contra hhand
      rw [invoked_act hi hhand] at hinvoked
      exact hhand hinvoked
    · intro hpolls
      cases ho : s.endpoint.offers with
      | false => rfl
      | true => exact absurd hreceived (received_act hi hpolls ho)
  · intro hnone us
    obtain ⟨hreceived, hinvoked⟩ := hbound us
    have hchances : s.chances = 0 := by
      rw [chances]
      split
      · next ho =>
        rw [List.countP_eq_zero]
        intro errand hmem hpolls
        rw [(hnone errand hmem).2 hpolls] at ho
        cases ho
      · rfl
    have hcallbacks : s.callbacks = 0 := by
      refine List.sum_eq_zero ?_
      intro n hn
      obtain ⟨errand, hmem, rfl⟩ := List.mem_map.mp hn
      obtain ⟨hhand, hpolls⟩ := hnone errand hmem
      exact Errand.callbacks_eq_zero hhand hpolls
    rw [hchances] at hreceived
    rw [hcallbacks] at hinvoked
    exact ⟨List.length_eq_zero_iff.mp (Nat.le_zero.mp hreceived),
      List.length_eq_zero_iff.mp (Nat.le_zero.mp hinvoked)⟩

/-- A dispatcher that finds the endpoint open, and then a close that returns before anything else
    happens. -/
def overtakenDispatcher : Crowd Link :=
  (start .server false Scene.fixedBacklog).after
    (Scene.busy.map .move ++
      [.start (.receive (.dispatcher none)), .act 0, .act 0, .start (.close none), .act 1, .act 1])

/-- One callback can still begin, and it is not the case that none does. -/
theorem callbacks_after_close_of_overtaken :
    overtakenDispatcher.endpoint.isClosed = true ∧ overtakenDispatcher.callbacks = 1 ∧
      (∀ us, (gather next invoked overtakenDispatcher us).length ≤ overtakenDispatcher.callbacks) ∧
      ¬ ∀ us, gather next received overtakenDispatcher us = [] ∧
        gather next invoked overtakenDispatcher us = [] := by
  have hc : overtakenDispatcher.endpoint.isClosed = true := by decide
  have hlaw := callbacks_after_close .server false Scene.fixedBacklog _ hc
  refine ⟨hc, by decide, fun us => (hlaw.1 us).2, ?_⟩
  intro hsilent
  have hreader : (.poll (.dispatcher none) : Errand Link) ∈ overtakenDispatcher.errands :=
    List.mem_singleton_self _
  have hoff : overtakenDispatcher.endpoint.offers = false := (hlaw.2.mp hsilent _ hreader).2 rfl
  revert hoff
  decide

/-- The close has returned, and the dispatcher is the only one under way. Still it receives an event
    that was in the channel before the close, and begins a callback for it. -/
theorem callback_begins_after_close :
    overtakenDispatcher.endpoint.isClosed = true ∧
      overtakenDispatcher.errands.map Errand.dispatches = [true] ∧
      (gather next received overtakenDispatcher [.act 0, .act 0]).map (·.code) = [.ok] ∧
      (gather next invoked overtakenDispatcher [.act 0, .act 0]).map (·.code) = [.ok] := by
  decide

end Crowd

end LocalEndpoint
