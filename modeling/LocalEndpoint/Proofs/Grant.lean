import LocalEndpoint.Proofs.Closing
import LocalEndpoint.Proofs.FailedListen
import Mathlib.Data.List.Induction

/-! One backlog for everything. What a successful `listen` grants follows from the configured rule,
    the request, and the pending instances set last (`settings_after`). The same number goes to the
    provider, is shown to callers, becomes the loop's threshold, and makes the channel's capacity
    (`Granting`); loop and channel keep theirs through every move (`Change.fixed`), and the number
    shown is the loop's as long as the endpoint is open. -/

namespace LocalEndpoint

/-- The number of pending instances that a move sets. -/
def Move.setting? {C : Type} : Move C → Option Size
  | .setPendingInstances n => some n
  | _ => none

/-- The number of pending instances after a run: the last one set, or else the configured one. -/
def Config.instancesAfter {C : Type} (config : Config) (ms : List (Move C)) : Size :=
  (ms.filterMap Move.setting?).getLast?.getD config.pendingInstances

theorem Config.instancesAfter_concat {C : Type} (config : Config) (ms : List (Move C))
    (m : Move C) :
    config.instancesAfter (ms ++ [m]) = m.setting?.getD (config.instancesAfter ms) := by
  rw [instancesAfter, List.filterMap_append, List.getLast?_append]
  cases m <;> rfl

namespace Channel

variable {α : Type}

/-- A channel can be made for every backlog: there is room for one, and not for too many. -/
theorem capacity_ofBacklog (backlog : Size) :
    1 ≤ (ofBacklog backlog : Channel α).capacity ∧
      (ofBacklog backlog : Channel α).capacity ≤ maxCapacity := by
  rw [ofBacklog]
  refine ⟨Nat.le_max_left .., Nat.max_le.mpr ⟨?_, Nat.min_le_right ..⟩⟩
  exact Nat.succ_le_succ (Nat.zero_le _)

theorem capacity_receive (c : Channel α) : c.receive.2.capacity = c.capacity := by
  rw [receive]
  split <;> rfl

end Channel

namespace Endpoint

variable {C : Type}

/-- What `listen` goes by: the configuration and the pending instances. -/
def settings (e : Endpoint C) : Config × Size := (e.config, e.pendingInstances)

/-- An endpoint that works with this backlog. -/
structure Granting (e : Endpoint C) (b : Size) : Prop where
  shown : e.backlog = some b
  threshold : e.loop.map (·.backlog) = some b
  capacity : e.channel.map (·.capacity) = some (max 1 (min b.toNat 65536))

/-- It does not listen a second time. -/
theorem Granting.not_ready {e : Endpoint C} {b : Size} (h : e.Granting b) (hs : e.Sound)
    (inRuntime : Bool) : ¬ e.Ready inRuntime := by
  intro hready
  have hnone : e.backlog = none := by
    rw [hs.backlog, hready.unlistening]
    rfl
  rw [h.shown] at hnone
  cases hnone

theorem settings_bind (e : Endpoint C) (name : String) : (e.bind name).1.settings = e.settings := by
  rw [bind]
  split <;> rfl

theorem settings_finishConnect [Located C] (e : Endpoint C) (a : Attempt)
    (outcome : Except Failure C) : (e.finishConnect a outcome).1.settings = e.settings := by
  cases outcome with
  | error f => rfl
  | ok c =>
    rw [finishConnect]
    split <;> rfl

theorem Piece.settings [Located C] {e f : Endpoint C} {l : AcceptLoop C} {s : Station C}
    {os : List (Occurrence C)} (h : Piece e l s f os) : f.settings = e.settings := by
  cases h <;> rfl

/-! ### Loop and channel -/

theorem Reception.capacity {e : Endpoint C} {m : Move C} {channel : Option (Channel (Event C))}
    (h : e.Reception m channel) : channel.map (·.capacity) = e.channel.map (·.capacity) := by
  cases h with
  | asked =>
    rw [takeReceiver]
    split
    · next ch hch =>
      split
      · rw [hch]
        rfl
      · rfl
    · rfl
  | looked =>
    rw [poll]
    split
    · next ch hch =>
      rw [hch]
      exact congrArg some ch.capacity_receive
    · rfl
  | untouched => rfl
  | dropped =>
    rw [dropReceiver, onChannel, Option.map_map]
    rfl

variable [Located C] {e f : Endpoint C} {os : List (Occurrence C)}

theorem Piece.fixed {l : AcceptLoop C} {s : Station C} (h : Piece e l s f os)
    (hl : e.loop = some l) :
    f.loop.map (·.backlog) = e.loop.map (·.backlog) ∧
      f.channel.map (·.capacity) = e.channel.map (·.capacity) := by
  rw [hl]
  cases h with
  | await | rest =>
    rw [hl]
    exact ⟨rfl, rfl⟩
  | enter | send | stop =>
    refine ⟨rfl, ?_⟩
    simp [moveTo, onChannel, bump, Function.comp_def, Channel.send, Channel.hangUp]
  | _ => exact ⟨rfl, rfl⟩

/-- Loop and channel, once there, keep the backlog and the capacity they were made with. -/
theorem Change.fixed {m : Move C} (h : Change e m f os) (hs : e.Sound)
    (hl : e.loop.isSome = true) :
    f.loop.map (·.backlog) = e.loop.map (·.backlog) ∧
      f.channel.map (·.capacity) = e.channel.map (·.capacity) := by
  cases h with
  | aside _ hb => rw [hb.loop, hb.channel]; exact ⟨rfl, rfl⟩
  | receiving _ _ _ hr => exact ⟨rfl, hr.capacity⟩
  | opening _ hc hn =>
    rw [hs.loop hc, hn] at hl
    cases hl
  | closing =>
    refine ⟨rfl, ?_⟩
    rw [shut, Option.map_map]
    congr 1
    funext ch
    simp only [Function.comp_apply]
    split <;> rfl
  | piece hl _ hp => exact hp.fixed hl
  | answered hl | rung hl => exact ⟨by rw [hl]; rfl, rfl⟩
  | _ => exact ⟨rfl, rfl⟩

/-- Only moves aside can set anything. -/
theorem Change.settings {m : Move C} (h : Change e m f os) (hm : m.aside = false) :
    f.settings = e.settings := by
  cases h with
  | aside ha => rw [hm] at ha; cases ha
  | piece _ _ hp => exact hp.settings
  | _ => rfl

/-- The loop throttles exactly where a cycle of an open endpoint finds more connections than its
    backlog. -/
theorem Change.throttled_iff {m : Move C} (h : Change e m f os) (count threshold : Size) :
    .throttled count threshold ∈ os ↔
      m = .work ∧ e.isClosed = false ∧ e.loop = some ⟨threshold, .cycling⟩ ∧ count = e.count ∧
        threshold < count := by
  refine ⟨fun ho => ?_, ?_⟩
  · cases h with
    | aside _ _ hos | refusal _ hos | opening _ _ _ hos | closing _ hos =>
      exact absurd (hos _ ho) (by simp [Occurrence.onAcceptPath])
    | receiving _ hos => exact absurd (hos _ ho) (by simp)
    | @piece l _ _ _ hl hst hp =>
      cases hp with
      | throttle hc hx =>
        obtain ⟨b, s⟩ := l
        cases hst
        obtain ⟨rfl, rfl⟩ : count = e.count ∧ threshold = b := by simpa using ho
        exact ⟨rfl, hc, hl, rfl, by simpa [Occupancy.exceeds, count] using hx⟩
      | _ => simp at ho
    | _ => cases ho
  · rintro ⟨rfl, hc, hl, rfl, hlt⟩
    have hx : e.occupancy.exceeds threshold = true := decide_eq_true hlt
    cases h with
    | aside hm => cases hm
    | receiving hm => cases hm
    | noLoop hn => rw [hl] at hn; cases hn
    | piece hl' hst hp =>
      rw [hl] at hl'
      cases hl'
      cases hst
      cases hp with
      | leave _ hclosed => rw [hc] at hclosed; cases hclosed
      | discard hs => cases hs
      | throttle => exact List.mem_singleton_self _
      | cycle _ hx' => rw [hx] at hx'; cases hx'

end Endpoint

namespace Scene

variable {C : Type} [Located C]

theorem settings_next (s : Scene C) (m : Move C) :
    (s.next m).endpoint.settings =
      (s.endpoint.config, m.setting?.getD s.endpoint.pendingInstances) := by
  cases ha : m.aside with
  | false =>
    have hnone : m.setting? = none := by
      cases m <;> first | rfl | cases ha
    rw [hnone]
    exact (s.change_step m).settings ha
  | true =>
    cases m with
    | bind name => exact s.endpoint.settings_bind name
    | connect a panics =>
      rw [next, step, connect]
      split <;> rfl
    | connectEnds i outcome panics =>
      rw [next, step, connectEnds]
      split
      · rfl
      · exact s.endpoint.settings_finishConnect _ outcome
    | setPendingInstances | fchmod | ref | unref | takeConnection => rfl
    | _ => cases ha

/-- The configuration stays, and the pending instances are the last ones set. -/
theorem settings_after (role : Role) (ipc : Bool) (config : Config) (ms : List (Move C)) :
    ((start role ipc config).after ms).endpoint.settings = (config, config.instancesAfter ms) := by
  induction ms using List.reverseRecOn with
  | nil => rfl
  | append_singleton ms m ih =>
    obtain ⟨hconfig, hinstances⟩ := Prod.mk.inj ih
    rw [Runs.concat after, settings_next, config.instancesAfter_concat, hconfig, hinstances]

/-- Loop and channel keep backlog and capacity in every run. -/
theorem fixed_after {s : Scene C} (hs : s.endpoint.Sound) (hl : s.endpoint.loop.isSome = true)
    (ms : List (Move C)) :
    (s.after ms).endpoint.loop.map (·.backlog) = s.endpoint.loop.map (·.backlog) ∧
      (s.after ms).endpoint.channel.map (·.capacity) = s.endpoint.channel.map (·.capacity) := by
  induction ms generalizing s with
  | nil => exact ⟨rfl, rfl⟩
  | cons m ms ih =>
    have hc := s.change_step m
    obtain ⟨hbacklog, hcapacity⟩ := hc.fixed hs hl
    have hloop : (s.next m).endpoint.loop.isSome = true := by
      rw [← Option.isSome_map, hbacklog, Option.isSome_map, hl]
    obtain ⟨hbacklog', hcapacity'⟩ := ih (s.sound_next m hs) hloop
    exact ⟨hbacklog'.trans hbacklog, hcapacity'.trans hcapacity⟩

theorem next_of_listen_ok {s : Scene C} {inRuntime : Bool} {requested : Size}
    {answer : Except Failure String}
    (hok : (s.endpoint.listen inRuntime requested answer).2.1 = .ok .ok) :
    ∃ resolved, (s.next (.listen inRuntime requested answer)).endpoint =
      s.endpoint.startListening resolved
        (s.endpoint.config.effectiveBacklog requested s.endpoint.pendingInstances) := by
  obtain ⟨-, -, _, resolved, rfl, hlisten⟩ := Endpoint.listen_of_ok hok
  exact ⟨resolved, congrArg Prod.fst hlisten⟩

/-- Until the close an endpoint works with what its `listen` granted. -/
theorem granting_after {s : Scene C} (hs : s.endpoint.Sound) {resolved : String} {b : Size}
    {e : Endpoint C} (hstart : s.endpoint = e.startListening resolved b) (ms : List (Move C))
    (ho : (s.after ms).endpoint.isClosed = false) : (s.after ms).endpoint.Granting b := by
  obtain ⟨hthreshold, hcapacity⟩ := fixed_after hs (by rw [hstart]; rfl) ms
  rw [hstart] at hthreshold hcapacity
  have hsound : (s.after ms).endpoint.Sound :=
    Runs.induction after (P := fun t => t.endpoint.Sound) hs sound_next ms
  have hlistening : (s.after ms).endpoint.state.isListening = true := by
    rw [← hsound.loop ho, ← Option.isSome_map, hthreshold]
    rfl
  have hshown : (s.after ms).endpoint.backlog = some b := by
    rw [hsound.backlog, if_pos hlistening, hthreshold]
    rfl
  exact ⟨hshown, hthreshold, hcapacity⟩

/-- One backlog, used everywhere and fixed. Whatever has happened before, when `listen` returns OK,
    the configured rule makes the backlog `b` from the request and the pending instances set last,
    or else those of the configuration. The provider is asked for `b`, once, and a channel is made
    for `b`, which is always possible. Until the close, and whatever else is done, the endpoint
    shows `b`, its loop compares with `b`, and its channel has room for `b` events, but at least one
    and at most 65536; a cycle is throttled exactly if it finds more than `b` connections; and no
    `listen` asks the provider again. -/
theorem one_backlog (role : Role) (ipc : Bool) (config : Config) (before : List (Move C))
    (inRuntime : Bool) (requested : Size) (answer : Except Failure String) :
    let s := (start role ipc config).after before
    let m := Move.listen inRuntime requested answer
    let b := config.rule.effective requested (config.instancesAfter before)
    (s.endpoint.listen inRuntime requested answer).2.1 = .ok .ok →
      (∃ address, s.endpoint.address = some address ∧
        (s.step m).2.filterMap Occurrence.asked? = [(address, b)]) ∧
      (∃ ch, (s.next m).endpoint.channel = some ch ∧ ch = .ofBacklog b ∧
        1 ≤ ch.capacity ∧ ch.capacity ≤ Channel.maxCapacity) ∧
      ∀ after, let t := s.after (m :: after)
        t.endpoint.isClosed = false →
          t.endpoint.Granting b ∧
          (∀ n count threshold, .throttled count threshold ∈ (t.step n).2 ↔
            n = .work ∧ t.endpoint.loop = some ⟨b, .cycling⟩ ∧ count = t.endpoint.count ∧
              threshold = b ∧ b < count) ∧
          ∀ inRuntime requested answer,
            (t.endpoint.listen inRuntime requested answer).2.1 ≠ .ok .ok ∧
              (t.step (.listen inRuntime requested answer)).2.filterMap Occurrence.asked? = [] := by
  intro s m b hok
  have hs : s.endpoint.Sound := sound_after role ipc config before
  obtain ⟨hconfig, hinstances⟩ := Prod.mk.inj (settings_after role ipc config before)
  have hb : s.endpoint.config.effectiveBacklog requested s.endpoint.pendingInstances = b := by
    rw [hconfig, hinstances]
    rfl
  obtain ⟨hready, -⟩ := (s.endpoint.listen_eq_ok_iff inRuntime requested answer).mp hok
  obtain ⟨resolved, hstart⟩ := next_of_listen_ok hok
  rw [hb] at hstart
  have hchannel : (s.next m).endpoint.channel = some (.ofBacklog b) :=
    congrArg Endpoint.channel hstart
  refine ⟨?_, ⟨.ofBacklog b, hchannel, rfl, Channel.capacity_ofBacklog b⟩, ?_⟩
  · obtain ⟨address, haddress, hasked⟩ :=
      (s.endpoint.asked_listen inRuntime requested answer).1 hready
    exact ⟨address, haddress, hb ▸ hasked⟩
  intro after t ho
  have hgranting : t.endpoint.Granting b :=
    granting_after (s.sound_next m hs) hstart after ho
  refine ⟨hgranting, ?_, ?_⟩
  · intro n count threshold
    rw [(t.change_step n).throttled_iff]
    constructor
    · rintro ⟨hn, -, hl, hcount, hlt⟩
      have hthreshold : threshold = b := by simpa [hl] using hgranting.threshold
      rw [hthreshold] at hl hlt
      exact ⟨hn, hl, hcount, hthreshold, hlt⟩
    · rintro ⟨hn, hl, hcount, rfl, hlt⟩
      exact ⟨hn, ho, hl, hcount, hlt⟩
  · intro inRuntime requested answer
    have hnot : ¬ t.endpoint.Ready inRuntime := by
      have ht : t.endpoint.Sound :=
        Runs.induction Scene.after (P := fun t => t.endpoint.Sound) hs sound_next (m :: after)
      exact hgranting.not_ready ht inRuntime
    refine ⟨?_, (t.endpoint.asked_listen inRuntime requested answer).2 hnot⟩
    intro hagain
    exact hnot ((t.endpoint.listen_eq_ok_iff inRuntime requested answer).mp hagain).1

/-- Pending instances are set twice and a `listen` fails before the one that succeeds. -/
def undecided : List (Move Link) :=
  [.setPendingInstances 9, .listen true 3 (.ok "a"), .bind "a",
    .listen true 3 (.error (.io ⟨.addrInUse, "in use"⟩)), .setPendingInstances 0]

/-- Nobody may wait, and the channel has room for one. -/
theorem one_backlog_of_undecided :
    let s : Scene Link := (start .server false fixedBacklog).after undecided
    let t := s.after [.listen true 3 (.ok "a"), .setPendingInstances 7, .listen true 3 (.ok "a")]
    (s.endpoint.listen true 3 (.ok "a")).2.1 = .ok .ok ∧
      fixedBacklog.rule.effective 3 (fixedBacklog.instancesAfter undecided) = 0 ∧
      t.endpoint.isClosed = false ∧ t.endpoint.pendingInstances = 7 ∧ t.endpoint.Granting 0 := by
  intro s t
  have hok : (s.endpoint.listen true 3 (.ok "a")).2.1 = .ok .ok := rfl
  have ho : t.endpoint.isClosed = false := by decide
  refine ⟨hok, by decide, ho, by decide, ?_⟩
  exact ((one_backlog .server false fixedBacklog undecided true 3 (.ok "a") hok).2.2 _ ho).1

end Scene

end LocalEndpoint
