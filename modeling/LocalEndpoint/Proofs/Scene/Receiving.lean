import LocalEndpoint.Proofs.Scene.Sound

/-! The receiving side. Whoever wants or has the receiving end changes the channel at most, and that
    in one of four ways (`Reception`, `reception_next`). A look for an event does one of three
    things (`Polled`): it finds nothing, it takes the oldest event out of an open endpoint's
    channel, or it lets go of the end. -/

namespace LocalEndpoint

/-- Whether a move is made by whoever wants or has the receiving end. -/
def Move.receives {C : Type} : Move C → Bool
  | .takeReceiver | .poll _ | .dropReceiver => true
  | _ => false

namespace Channel

variable {α : Type}

/-- What is received is the oldest element, and the others stay in order. -/
theorem toList_of_receive {c c' : Channel α} {a : α} (h : c.receive = (.item a, c')) :
    c.buffer.toList = a :: c'.buffer.toList ∧ c'.custody = c.custody := by
  have hq := c.buffer.pop?_eq
  unfold receive at h
  split at h
  · next b rest hp =>
    cases h
    rw [hp] at hq
    cases ht : c.buffer.toList with
    | nil => simp [ht] at hq
    | cons x xs => simp_all
  · split at h <;> cases h

theorem receive_eq_self {c : Channel α} (h : ∀ a, c.receive.1 ≠ .item a) : c.receive.2 = c := by
  unfold receive at h ⊢
  split
  · next a rest hp => simp [hp] at h
  · rfl

theorem receive_fst (c : Channel α) :
    c.receive.1 = c.buffer.toList.head?.elim (if c.sending then .pending else .ended) .item := by
  have hq := c.buffer.pop?_eq
  rw [receive]
  cases hp : c.buffer.pop? with
  | some p =>
    rw [hp, Option.map_some] at hq
    cases hh : c.buffer.toList.head? with
    | none => simp [hh] at hq
    | some a =>
      simp only [hh, Option.map_some, Option.some.injEq, Prod.mk.injEq] at hq
      simp [hq.1]
  | none =>
    have hh : c.buffer.toList.head? = none := by simpa [hp] using hq.symm
    simp [hh]

theorem size_of_receive {c c' : Channel α} {a : α} (h : c.receive = (.item a, c')) :
    c.buffer.size = c'.buffer.size + 1 := by
  rw [Fifo.size_eq_length, (toList_of_receive h).1, List.length_cons, ← Fifo.size_eq_length]

theorem size_receive_le (c : Channel α) : c.receive.2.buffer.size ≤ c.buffer.size := by
  cases hr : c.receive.1 with
  | item a =>
    rw [size_of_receive (Prod.ext hr rfl)]
    exact Nat.le_succ _
  | pending | ended =>
    have hsame : c.receive.2 = c := receive_eq_self (by simp [hr])
    exact Nat.le_of_eq (by rw [hsame])

/-- A look at a channel leaves its two ends where they are. -/
theorem receive_ends (c : Channel α) :
    c.receive.2.custody = c.custody ∧ c.receive.2.sending = c.sending := by
  rw [receive]
  split <;> exact ⟨rfl, rfl⟩

end Channel

namespace Endpoint

variable {C : Type}

/-- Where the receiving end is, if there is one. -/
def custody? (e : Endpoint C) : Option Custody := e.channel.map (·.custody)

theorem receiverTaken_iff_custody? {e : Endpoint C} :
    e.receiverTaken = true ↔ e.custody? = some .taken := by
  cases hch : e.channel <;> simp [receiverTaken, custody?, hch]

/-- A look at the channel leaves the receiving end where it is. -/
theorem custody?_poll (e : Endpoint C) : e.poll.2.custody? = e.custody? := by
  cases hch : e.channel with
  | none => simp [poll, hch]
  | some ch => simp [custody?, poll, hch, ch.receive_ends.1]

end Endpoint

/-- The channel that a move of the receiving side leaves to an endpoint. Only who asks for the
    receiving end is given it. -/
inductive Endpoint.Reception {C : Type} (e : Endpoint C) :
    Move C → Option (Channel (Event C)) → Prop
  | asked : Reception e .takeReceiver e.takeReceiver.1.channel
  | looked {reader} : Reception e (.poll reader) e.poll.2.channel
  | untouched {m : Move C} (hm : m ≠ .takeReceiver) : Reception e m e.channel
  | dropped {m : Move C} (hm : m ≠ .takeReceiver) : Reception e m e.dropReceiver.channel

/-- The receiving side leaves the sending end alone, and the receiving end goes from the endpoint to
    who asks for it, or is dropped. -/
theorem Endpoint.Reception.ends {C : Type} {e : Endpoint C} {m : Move C}
    {channel : Option (Channel (Event C))} (h : e.Reception m channel) :
    ∀ ch' ∈ channel, ∃ ch ∈ e.channel, ch'.sending = ch.sending ∧
      (ch'.custody = ch.custody ∨ ch'.custody = .dropped ∨
        ch.custody = .stored ∧ ch'.custody = .taken) := by
  intro ch' hch'
  cases h with
  | asked =>
    rw [takeReceiver] at hch'
    split at hch'
    · next ch hch =>
      split at hch'
      · next hst =>
        cases hch'
        exact ⟨ch, hch, rfl, .inr (.inr ⟨hst, rfl⟩)⟩
      · exact ⟨ch', hch', rfl, .inl rfl⟩
    · next hn => rw [hn] at hch'; cases hch'
  | looked =>
    rw [poll] at hch'
    split at hch'
    · next ch hch =>
      cases hch'
      obtain ⟨hcustody, hsending⟩ := ch.receive_ends
      exact ⟨ch, hch, hsending, .inl hcustody⟩
    · next hn => rw [hn] at hch'; cases hch'
  | untouched => exact ⟨ch', hch', rfl, .inl rfl⟩
  | dropped =>
    obtain ⟨ch, hch, rfl⟩ := Option.map_eq_some_iff.mp hch'
    exact ⟨ch, hch, rfl, .inr (.inl rfl)⟩

/-- The receiving side only takes out of the channel. -/
theorem Endpoint.Reception.buffered_le {C : Type} {e : Endpoint C} {m : Move C}
    {channel : Option (Channel (Event C))} (h : e.Reception m channel) :
    ({ e with channel } : Endpoint C).buffered ≤ e.buffered := by
  cases h with
  | asked =>
    rw [takeReceiver]
    split
    · next ch hch =>
      split <;> simp [buffered, hch]
    · exact Nat.le_refl _
  | looked =>
    rw [poll]
    split
    · next ch hch => simpa [buffered, hch] using ch.size_receive_le
    · exact Nat.le_refl _
  | untouched => exact Nat.le_refl _
  | dropped =>
    cases hch : e.channel <;>
      simp [buffered, dropReceiver, onChannel, hch, Channel.abandon, Fifo.empty]

theorem Endpoint.buffered_hangUp {C : Type} (e : Endpoint C) :
    (e.onChannel (·.hangUp)).buffered = e.buffered := by
  cases hch : e.channel <;> simp [buffered, onChannel, hch, Channel.hangUp]

namespace Scene

variable {C : Type}

/-- What occurs once a reader has been given an event. -/
def handling (event : Event C) : Reader → List (Occurrence C)
  | .dispatcher panics => .invoked event :: panicOf .onConnection panics
  | _ => []

/-- What a look for an event can do to an endpoint, and what occurs. -/
inductive Polled (e : Endpoint C) (reader : Reader) : Endpoint C → List (Occurrence C) → Prop
  | nothing : Polled e reader e []
  | event {ch ch' : Channel (Event C)} {event : Event C} (hc : e.isClosed = false)
      (hch : e.channel = some ch) (ht : ch.custody = .taken)
      (hr : ch.receive = (.item event, ch')) :
      Polled e reader { e with channel := some ch' } (.received event :: handling event reader)
  | ended {os : List (Occurrence C)} (ho : ∀ o ∈ os, o = .dispatcherFinished) :
      Polled e reader e.dropReceiver os

theorem receive_item {e e' : Endpoint C} {event : Event C} (h : e.receive = (.item event, e')) :
    e.isClosed = false ∧ ∃ ch ch', e.channel = some ch ∧ ch.receive = (.item event, ch') ∧
      e' = { e with channel := some ch' } := by
  cases hc : e.isClosed with
  | true => simp [Endpoint.receive, hc] at h
  | false =>
    cases hch : e.channel with
    | none => simp [Endpoint.receive, Endpoint.poll, hc, hch] at h
    | some ch =>
      simp only [Endpoint.receive, Endpoint.poll, hc, hch, Bool.false_eq_true, if_false,
        Prod.mk.injEq] at h
      exact ⟨rfl, ch, ch.receive.2, rfl, by rw [← h.1], h.2.symm⟩

theorem receive_eq_self {e : Endpoint C} (h : ∀ event, e.receive.1 ≠ .item event) :
    e.receive.2 = e := by
  unfold Endpoint.receive Endpoint.poll at h ⊢
  split
  · rfl
  · next hc =>
    rw [if_neg hc] at h
    split
    · next ch hch =>
      have hr : ch.receive.2 = ch := Channel.receive_eq_self fun a => by simpa [hch] using h a
      rw [hr, ← hch]
    · rfl

theorem polled_poll (s : Scene C) (reader : Reader) :
    Polled s.endpoint reader (s.poll reader).1.endpoint (s.poll reader).2 := by
  rw [poll]
  split
  · next ht =>
    cases hr : s.endpoint.receive.1 with
    | item event =>
      obtain ⟨hc, ch, ch', hch, hrec, he⟩ := receive_item (Prod.ext hr rfl)
      have ht' : ch.custody = .taken := by simpa [Endpoint.receiverTaken, hch] using ht
      simp only [he]
      cases reader <;> exact .event hc hch ht' hrec
    | pending | ended =>
      have he : s.endpoint.receive.2 = s.endpoint := receive_eq_self (by simp [hr])
      simp only [he]
      cases reader <;> first | exact .nothing | exact .ended (by simp)
  · exact .nothing

variable [Located C]

/-- A move of the receiving side changes the channel at most. -/
theorem reception_next (s : Scene C) {m : Move C} (hm : m.receives = true) :
    ∃ channel, (s.next m).endpoint = { s.endpoint with channel } ∧
      s.endpoint.Reception m channel := by
  cases m with
  | takeReceiver =>
    refine ⟨s.endpoint.takeReceiver.1.channel, ?_, .asked⟩
    simp only [next, step, put, Endpoint.takeReceiver]
    split
    · split <;> rfl
    · rfl
  | poll reader =>
    have hne : (.poll reader : Move C) ≠ .takeReceiver := by simp
    rw [next, step]
    have hp := s.polled_poll reader
    generalize (s.poll reader).1.endpoint = e, (s.poll reader).2 = os at hp
    cases hp with
    | nothing => exact ⟨_, rfl, .untouched hne⟩
    | ended => exact ⟨_, rfl, .dropped hne⟩
    | @event ch ch' _ _ hch _ hr =>
      have hpoll : s.endpoint.poll.2.channel = some ch' := by simp [Endpoint.poll, hch, hr]
      exact ⟨_, rfl, hpoll ▸ .looked⟩
  | dropReceiver =>
    have hne : (.dropReceiver : Move C) ≠ .takeReceiver := by simp
    simp only [next, step, put]
    split
    · exact ⟨_, rfl, .dropped hne⟩
    · exact ⟨_, rfl, .untouched hne⟩
  | _ => cases hm

/-- Nothing that the receiving side does is the loop's doing. -/
theorem byLoop_of_receives (s : Scene C) {m : Move C} (hm : m.receives = true) :
    ∀ o ∈ (s.step m).2, o.byLoop = false := by
  cases m with
  | takeReceiver | dropReceiver => exact List.forall_mem_nil _
  | poll reader =>
    rw [step]
    have hp := s.polled_poll reader
    generalize (s.poll reader).1.endpoint = e, (s.poll reader).2 = os at hp
    cases hp with
    | nothing => exact List.forall_mem_nil _
    | ended ho => exact fun o hm => by rw [ho o hm]; rfl
    | event =>
      cases reader with
      | direct | stream => simp [handling]
      | dispatcher panics => cases panics <;> simp [handling, panicOf]
  | _ => cases hm

/-- Nothing reaches the consumer of a closed endpoint. -/
theorem reachesConsumer_of_isClosed (s : Scene C) {m : Move C} (hm : m.receives = true)
    (hcl : s.endpoint.isClosed = true) : ∀ o ∈ (s.step m).2, o.reachesConsumer = false := by
  cases m with
  | takeReceiver | dropReceiver => exact List.forall_mem_nil _
  | poll reader =>
    rw [step]
    have hp := s.polled_poll reader
    generalize (s.poll reader).1.endpoint = e, (s.poll reader).2 = os at hp
    cases hp with
    | nothing => exact List.forall_mem_nil _
    | ended ho => exact fun o hm => by rw [ho o hm]; rfl
    | event hc => exact absurd (hcl.symm.trans hc) (by decide)
  | _ => cases hm

end Scene

end LocalEndpoint
