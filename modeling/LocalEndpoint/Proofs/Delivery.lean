import LocalEndpoint.Proofs.Scene.Change
import Mathlib.Data.List.Induction

/-! Delivery is exact and in order. `Delivered` says of an endpoint how four lists hang together:
    the events of the accepts that settled, the events sent, the events received, and what is in the
    channel. Nothing is lost on the way from the first to the last but the one event that a loop may
    drop when it stops. The invariant is kept by every piece of the loop's work
    (`Delivered.piece`) and by every move (`delivered_next`), hence by every run. -/

namespace LocalEndpoint

/-- The event that reports an accept's outcome, where the listener's connections carry control
    messages or not. -/
def Event.reporting {C : Type} [Located C] (ipc : Bool) : Except Failure C → Event C
  | .ok c => ⟨.ok, some ⟨Role.accepted ipc, Located.localAddress c, c⟩⟩
  | .error f => ⟨Code.forAccept f, none⟩

theorem Code.forAccept_ne_ok (f : Failure) : Code.forAccept f ≠ .ok := by
  unfold Code.forAccept
  split <;> simp

theorem Event.reporting_code_eq_ok_iff {C : Type} [Located C] (ipc : Bool)
    (o : Except Failure C) :
    (Event.reporting ipc o).code = .ok ↔ (Event.reporting ipc o).handle.isSome = true := by
  cases o with
  | ok c => simp [reporting]
  | error f => simp [reporting, Code.forAccept_ne_ok f]

/-- What settled is what was sent and the event in hand; a loop that stops may have dropped that. -/
def Station.Accounts {C : Type} (settled sent : List (Event C)) : Station C → Prop
  | .offering event _ | .reserving event _ | .admitting event _ => settled = sent ++ [event]
  | .stopping | .stopped => settled = sent ∨ ∃ event, settled = sent ++ [event]
  | _ => settled = sent

theorem Station.Accounts.eq_or_concat {C : Type} {settled sent : List (Event C)} {s : Station C}
    (h : s.Accounts settled sent) :
    settled = sent ∨ ∃ event, settled = sent ++ [event] ∧
      (s.event? = some event ∨ s.ends = true) := by
  cases s with
  | offering | reserving | admitting => exact .inr ⟨_, h, .inl rfl⟩
  | stopping | stopped =>
    rcases h with h | ⟨event, h⟩
    · exact .inl h
    · exact .inr ⟨event, h, .inr rfl⟩
  | _ => exact .inl h

/-- The event in hand has settled. -/
theorem Station.Accounts.mem_of_event? {C : Type} {settled sent : List (Event C)} {s : Station C}
    {event : Event C} (h : s.Accounts settled sent) (he : s.event? = some event) :
    event ∈ settled := by
  cases s with
  | offering | reserving | admitting =>
    cases he
    rw [h]
    exact List.mem_concat_self
  | _ => cases he

/-- A loop may stop anywhere. -/
theorem Station.Accounts.stopping {C : Type} {settled sent : List (Event C)} {s : Station C}
    (h : s.Accounts settled sent) : Station.stopping.Accounts settled sent :=
  h.eq_or_concat.imp_right fun ⟨event, he, _⟩ => ⟨event, he⟩

theorem Station.accounts_afterSending {C : Type} {settled sent : List (Event C)} (retries : Bool)
    (h : settled = sent) : (Station.afterSending retries : Station C).Accounts settled sent := by
  cases retries <;> exact h

namespace Endpoint

variable {C : Type}

/-- How the events that settled, were sent and were received agree with loop and channel. -/
structure Delivered (e : Endpoint C) (settled sent received : List (Event C)) : Prop where
  fresh : e.loop = none → settled = [] ∧ sent = []
  inHand : ∀ l ∈ e.loop, l.station.Accounts settled sent
  inOrder : received <+: sent
  inChannel : ∀ ch ∈ e.channel, ch.custody ≠ .dropped → sent = received ++ ch.buffer.toList

namespace Delivered

variable {e f : Endpoint C} {l : AcceptLoop C} {settled sent received : List (Event C)}

/-- The loop goes on to a station that accounts for what has settled by then. -/
theorem goOn {settled' : List (Event C)} {m : AcceptLoop C} (h : e.Delivered settled sent received)
    (hm : f.loop = some m) (hch : f.channel = e.channel) (hs : m.station.Accounts settled' sent) :
    f.Delivered settled' sent received := by
  refine ⟨fun hn => ?_, fun m' hm' => ?_, h.inOrder, hch ▸ h.inChannel⟩
  · rw [hm] at hn; cases hn
  · rw [hm] at hm'; cases hm'
    exact hs

/-- The channel changes and holds what it held, or its receiving end is dropped. -/
theorem rechannel (h : e.Delivered settled sent received) (hl : f.loop = e.loop)
    (hch : ∀ ch' ∈ f.channel, ch'.custody ≠ .dropped →
      ∃ ch ∈ e.channel, ch.custody ≠ .dropped ∧ ch'.buffer = ch.buffer) :
    f.Delivered settled sent received := by
  refine ⟨hl ▸ h.fresh, hl ▸ h.inHand, h.inOrder, fun ch' hch' hd => ?_⟩
  obtain ⟨ch, hc, hcd, hb⟩ := hch ch' hch' hd
  rw [hb]
  exact h.inChannel ch hc hcd

/-- The event in hand enters the channel, and the loop goes on. -/
theorem send {event : Event C} {m : AcceptLoop C} (h : e.Delivered settled sent received)
    (hm : f.loop = some m) (hch : f.channel = e.channel.map (·.send event))
    (hs : m.station.Accounts settled (sent ++ [event])) :
    f.Delivered settled (sent ++ [event]) received := by
  refine ⟨fun hn => ?_, fun m' hm' => ?_, h.inOrder.trans (List.prefix_append ..),
    fun ch' hch' hd => ?_⟩
  · rw [hm] at hn; cases hn
  · rw [hm] at hm'; cases hm'
    exact hs
  · rw [hch] at hch'
    obtain ⟨ch, hc, rfl⟩ := Option.map_eq_some_iff.mp hch'
    rw [Channel.send, Fifo.toList_push, ← List.append_assoc, ← h.inChannel ch hc hd]

/-- Nothing settles, is sent or is received. -/
theorem quiet {β : Type} {news : List β} {g : β → Event C} {os : List (Occurrence C)}
    (h : e.Delivered settled sent received) (hn : news = [])
    (hs : os.filterMap Occurrence.sent? = []) (hr : os.filterMap Occurrence.received? = []) :
    e.Delivered (settled ++ news.map g) (sent ++ os.filterMap Occurrence.sent?)
      (received ++ os.filterMap Occurrence.received?) := by
  rw [hn, hs, hr]
  simpa using h

/-- The loop does a piece of its work. -/
theorem piece [Located C] (h : e.Delivered settled sent received) (hl : e.loop = some l)
    {s : Station C} (hs : l.station = s) {os : List (Occurrence C)} (hp : Piece e l s f os) :
    f.Delivered
      (settled ++ (if e.isClosed then [] else s.outcome?.toList).map (Event.reporting e.ipc))
      (sent ++ os.filterMap Occurrence.sent?)
      (received ++ os.filterMap Occurrence.received?) := by
  have ha := h.inHand l hl
  rw [hs] at ha
  cases hp with
  | leave _ hc | discard _ hc =>
    exact quiet (h.goOn rfl rfl ha.stopping) (if_pos hc) rfl rfl
  | forsake => exact quiet (h.goOn rfl rfl ha.stopping) (ite_self _) rfl rfl
  | await | rest => exact quiet h (ite_self _) rfl rfl
  | succeed hc | fail hc =>
    rw [if_neg (by simp [hc])]
    change Delivered _ (settled ++ [_]) (sent ++ []) (received ++ [])
    rw [List.append_nil, List.append_nil]
    exact h.goOn rfl rfl (by rw [ha]; rfl)
  | enter hc | send hc =>
    rw [if_neg (by simp [hc])]
    change Delivered _ (settled ++ []) (sent ++ [_]) (received ++ [])
    rw [List.append_nil, List.append_nil]
    exact h.send rfl rfl (Station.accounts_afterSending _ ha)
  | stop =>
    have hstop : (e.moveTo l .stopped).Delivered settled sent received := h.goOn rfl rfl ha
    refine quiet (hstop.rechannel rfl fun ch' hch' hd => ?_) (ite_self _) rfl rfl
    obtain ⟨ch, hc, rfl⟩ := Option.map_eq_some_iff.mp hch'
    exact ⟨ch, hc, hd, rfl⟩
  | _ => exact quiet (h.goOn rfl rfl ha) (ite_self _) rfl rfl

theorem takeReceiver (h : e.Delivered settled sent received) :
    e.takeReceiver.1.Delivered settled sent received := by
  rw [Endpoint.takeReceiver]
  split
  · next ch hch =>
    split
    · next hst =>
      refine h.rechannel rfl fun ch' hch' _ => ?_
      cases hch'
      exact ⟨ch, hch, by simp [hst], rfl⟩
    · exact h
  · exact h

theorem dropReceiver (h : e.Delivered settled sent received) :
    e.dropReceiver.Delivered settled sent received := by
  refine h.rechannel rfl fun ch' hch' hd => ?_
  obtain ⟨ch, -, rfl⟩ := Option.map_eq_some_iff.mp hch'
  exact absurd rfl hd

theorem shut (h : e.Delivered settled sent received) : e.shut.Delivered settled sent received := by
  refine h.rechannel rfl fun ch' hch' hd => ?_
  obtain ⟨ch, hch, rfl⟩ := Option.map_eq_some_iff.mp hch'
  by_cases hst : ch.custody = .stored
  · rw [if_pos hst] at hd; exact absurd rfl hd
  · rw [if_neg hst] at hd ⊢
    exact ⟨ch, hch, hd, rfl⟩

/-- A listener opens: loop and channel are new, and nothing has happened before. -/
theorem startListening (h : e.Delivered settled sent received) (hn : e.loop = none)
    (resolved : String) (backlog : Size) :
    (e.startListening resolved backlog).Delivered settled sent received := by
  obtain ⟨rfl, rfl⟩ := h.fresh hn
  obtain rfl := List.prefix_nil.mp h.inOrder
  exact ⟨nofun, fun l hl => by cases hl; rfl, List.prefix_rfl, fun ch hch _ => by cases hch; rfl⟩

end Delivered

end Endpoint

namespace Scene

variable {C : Type} [Located C]

/-- The events that enter the channel in a run. -/
def sent (s : Scene C) (ms : List (Move C)) : List (Event C) :=
  (s.history ms).filterMap Occurrence.sent?

/-- The events that the consumer receives in a run, in whatever way. -/
def received (s : Scene C) (ms : List (Move C)) : List (Event C) :=
  (s.history ms).filterMap Occurrence.received?

/-- The events of the accepts that settle in a run. -/
def settled (s : Scene C) (ms : List (Move C)) : List (Event C) :=
  (gather next settles s ms).map (Event.reporting s.endpoint.ipc)

omit [Located C] in
theorem filterMap_eq_nil_of_not_onAcceptPath {os : List (Occurrence C)}
    (h : ∀ o ∈ os, o.onAcceptPath = false) :
    os.filterMap Occurrence.sent? = [] ∧ os.filterMap Occurrence.received? = [] :=
  ⟨List.filterMap_eq_nil_iff.mpr fun o ho =>
      Occurrence.sent?_of_not_byLoop (Occurrence.not_onAcceptPath (h o ho)).1,
    Occurrence.filterMap_received?_eq_nil fun o ho => (Occurrence.not_onAcceptPath (h o ho)).2⟩

omit [Located C] in
theorem filterMap_handling (event : Event C) (reader : Reader) :
    (handling event reader).filterMap Occurrence.received? = [] := by
  cases reader with
  | direct | stream => rfl
  | dispatcher panics => cases panics <;> rfl

open Endpoint (Delivered)

variable {s : Scene C} {settled sent received : List (Event C)}

omit [Located C] in
theorem delivered_poll (h : s.endpoint.Delivered settled sent received) (reader : Reader) :
    (s.poll reader).1.endpoint.Delivered settled sent
      (received ++ (s.poll reader).2.filterMap Occurrence.received?) := by
  have hp := s.polled_poll reader
  generalize (s.poll reader).1.endpoint = e, (s.poll reader).2 = os at hp
  cases hp with
  | nothing => simpa using h
  | ended ho =>
    obtain ⟨-, hr⟩ := filterMap_eq_nil_of_not_onAcceptPath fun o hm => by rw [ho o hm]; rfl
    rw [hr, List.append_nil]
    exact h.dropReceiver
  | @event ch ch' event hc hch ht hr =>
    obtain ⟨hlist, hcus⟩ := Channel.toList_of_receive hr
    have hsent := h.inChannel ch hch (by simp [ht])
    rw [hlist, List.append_cons] at hsent
    simp only [List.filterMap_cons, Occurrence.received?, filterMap_handling]
    refine ⟨h.fresh, h.inHand, ⟨_, hsent.symm⟩, fun c hc _ => ?_⟩
    cases hc
    exact hsent

theorem delivered_receiving (h : s.endpoint.Delivered settled sent received) {m : Move C}
    (hm : m.receives = true) :
    (s.next m).endpoint.Delivered settled sent
      (received ++ (s.step m).2.filterMap Occurrence.received?) := by
  cases m with
  | poll reader => exact delivered_poll h reader
  | takeReceiver => simpa [next, step, put] using h.takeReceiver
  | dropReceiver =>
    simp only [next, step, put, List.filterMap_nil, List.append_nil]
    split
    · exact h.dropReceiver
    · exact h
  | _ => cases hm

/-- Every move keeps the account of what settled, was sent and was received. -/
theorem delivered_next (hs : s.endpoint.Sound) (h : s.endpoint.Delivered settled sent received)
    (m : Move C) :
    (s.next m).endpoint.Delivered (settled ++ (s.settles m).map (Event.reporting s.endpoint.ipc))
      (sent ++ (s.step m).2.filterMap Occurrence.sent?)
      (received ++ (s.step m).2.filterMap Occurrence.received?) := by
  by_cases hr : m.receives = true
  · have hn : m ≠ .work := by rintro rfl; cases hr
    have hsn : (s.step m).2.filterMap Occurrence.sent? = [] :=
      List.filterMap_eq_nil_iff.mpr fun o ho =>
        Occurrence.sent?_of_not_byLoop (s.byLoop_of_receives hr o ho)
    rw [s.settles_of_ne_work hn, hsn, List.map_nil, List.append_nil, List.append_nil]
    exact delivered_receiving h hr
  have hc := s.change_step m
  generalize (s.next m).endpoint = f, (s.step m).2 = os at hc
  have hq (ho : ∀ o ∈ os, o.onAcceptPath = false) := filterMap_eq_nil_of_not_onAcceptPath ho
  cases hc with
  | receiving hm => exact absurd hm hr
  | aside hm hb ho =>
    have hn : m ≠ .work := by rintro rfl; cases hm
    have hd : f.Delivered settled sent received :=
      h.rechannel hb.loop fun ch hch hd => ⟨ch, hb.channel ▸ hch, hd, rfl⟩
    exact hd.quiet (s.settles_of_ne_work hn) (hq ho).1 (hq ho).2
  | refusal _ ho => exact h.quiet (ite_self _) (hq ho).1 (hq ho).2
  | opening _ hc hl ho =>
    have hn : s.endpoint.loop = none := by simpa [hl] using hs.loop hc
    exact (h.startListening hn ..).quiet (ite_self _) (hq ho).1 (hq ho).2
  | release =>
    have hd : s.endpoint.release.Delivered settled sent received :=
      h.rechannel rfl fun ch hch hd => ⟨ch, hch, hd, rfl⟩
    exact hd.quiet (ite_self _) rfl rfl
  | closing _ ho => exact h.shut.quiet (ite_self _) (hq ho).1 (hq ho).2
  | closeAgain | unawaited | unheard => exact h.quiet (ite_self _) rfl rfl
  | noLoop hl => exact h.quiet (by simp [settles, takes, hl]) rfl rfl
  | piece hl hst hp => simpa [settles, takes, hl, hst] using h.piece hl hst hp
  | answered hl hs' | rung hl hs' =>
    have ha := h.inHand _ hl
    rw [hs'] at ha
    exact Delivered.quiet (h.goOn rfl rfl ha) (ite_self _) rfl rfl

/-- The endpoint's control-message flag never changes. -/
theorem ipc_next (s : Scene C) (m : Move C) : (s.next m).endpoint.ipc = s.endpoint.ipc := by
  have hc := s.change_step m
  generalize (s.next m).endpoint = f, (s.step m).2 = os at hc
  cases hc with
  | aside _ hb => exact hb.ipc
  | piece _ _ hp => cases hp <;> rfl
  | _ => rfl

theorem ipc_after (s : Scene C) (ms : List (Move C)) :
    (s.after ms).endpoint.ipc = s.endpoint.ipc :=
  Runs.induction after (P := fun t => t.endpoint.ipc = s.endpoint.ipc) rfl
    (fun t m h => (t.ipc_next m).trans h) ms

/-- After every run of a fresh endpoint the lists agree with its loop and its channel. -/
theorem delivered_after (role : Role) (ipc : Bool) (config : Config) (ms : List (Move C)) :
    ((start role ipc config).after ms).endpoint.Delivered ((start role ipc config).settled ms)
      ((start role ipc config).sent ms) ((start role ipc config).received ms) := by
  induction ms using List.reverseRecOn with
  | nil =>
    refine ⟨fun _ => ⟨rfl, rfl⟩, fun l hl => ?_, List.prefix_rfl, fun ch hch => ?_⟩
    · cases hl
    · cases hch
  | append_singleton ms m ih =>
    have hn := delivered_next (sound_after role ipc config ms) ih m
    rw [ipc_after] at hn
    simpa only [Runs.concat after, Scene.settled, Scene.sent, Scene.received, history_concat,
      gather_concat after, List.map_append, List.filterMap_append] using hn

/-- Delivery is exact and in order. Whatever callers, provider, consumer and loop do, and in
    whatever order, the events that entered the channel are those of the accepts that settled while
    the endpoint was open, without the last one if the loop still has it in hand or has stopped; the
    events received are the first of them, and those still to be received are in the channel. An
    event is OK exactly if it brings a connection. -/
theorem delivery_in_order (role : Role) (ipc : Bool) (config : Config) (ms : List (Move C)) :
    let s := start role ipc config
    let settled := (gather next settles s ms).map (Event.reporting ipc)
    let sent := (s.history ms).filterMap Occurrence.sent?
    let received := (s.history ms).filterMap Occurrence.received?
    (settled = sent ∨ ∃ event, settled = sent ++ [event] ∧
      ∃ l ∈ (s.after ms).endpoint.loop, l.station.event? = some event ∨ l.station.ends = true) ∧
    received <+: sent ∧
    (∀ ch ∈ (s.after ms).endpoint.channel,
      ch.custody ≠ .dropped → sent = received ++ ch.buffer.toList) ∧
    ∀ event ∈ settled, event.code = .ok ↔ event.handle.isSome = true := by
  intro s settled sent received
  have hd : (s.after ms).endpoint.Delivered settled sent received :=
    delivered_after role ipc config ms
  refine ⟨?_, hd.inOrder, hd.inChannel, fun event he => ?_⟩
  · cases hl : (s.after ms).endpoint.loop with
    | none =>
      obtain ⟨h₁, h₂⟩ := hd.fresh hl
      exact .inl (h₁.trans h₂.symm)
    | some l =>
      refine (hd.inHand l hl).eq_or_concat.imp_right fun ⟨event, he, hs⟩ => ?_
      exact ⟨event, he, l, rfl, hs⟩
  · obtain ⟨o, -, rfl⟩ := List.mem_map.mp he
    exact Event.reporting_code_eq_ok_iff ipc o

end Scene

end LocalEndpoint
