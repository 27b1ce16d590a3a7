import LocalEndpoint.Proofs.Preemption

/-! One loop, one accept, one receiving end. Each successful `listen` brings one loop and one
    receiving end with it, so it gives credit for one start of a loop and for handing one receiving
    end over; what is left of the credit can be read off the endpoint (`unstarted`, `stored`), and
    nothing else gives any. There is no second one: a `listen` succeeds only where there is no loop,
    and a loop, even one that has ended, stays. -/

namespace LocalEndpoint

namespace Occurrence

variable {C : Type}

@[simp] def isLoopStart : Occurrence C → Bool
  | .loopStarted _ => true
  | _ => false

end Occurrence

/-- How many starts are still to come where a loop stands. -/
@[simp] def Station.unstarted {C : Type} : Station C → Nat
  | .starting => 1
  | _ => 0

namespace Endpoint

variable {C : Type}

/-- How many loops have been brought in and have not started. -/
def unstarted (e : Endpoint C) : Nat := e.loop.elim 0 (·.station.unstarted)

/-- How many receiving ends wait in the endpoint to be taken. -/
def stored (e : Endpoint C) : Nat :=
  e.channel.elim 0 fun ch => if ch.custody = .stored then 1 else 0

/-- What a move that asks for the receiving end is told: whether it is handed over. -/
def hands (e : Endpoint C) : Move C → List Bool
  | .takeReceiver => [e.takeReceiver.2]
  | _ => []

theorem unstarted_of_loop {e : Endpoint C} {l : AcceptLoop C} (hl : e.loop = some l) :
    e.unstarted = l.station.unstarted := by rw [unstarted, hl]; rfl

theorem stored_le_one (e : Endpoint C) : e.stored ≤ 1 := by
  rw [stored]
  cases e.channel with
  | none => exact Nat.zero_le 1
  | some ch =>
    by_cases hst : ch.custody = .stored <;> simp [hst]

theorem stored_eq_one_iff {e : Endpoint C} :
    e.stored = 1 ↔ ∃ ch ∈ e.channel, ch.custody = .stored := by
  cases hch : e.channel <;> simp [stored, hch]

/-- The receiving end is handed over exactly if it is there to be taken. -/
theorem takeReceiver_iff {e : Endpoint C} : e.takeReceiver.2 = true ↔ e.stored = 1 := by
  rw [stored_eq_one_iff, takeReceiver]
  cases hch : e.channel with
  | none => simp
  | some ch => by_cases hst : ch.custody = .stored <;> simp [hst]

/-- Whoever asks leaves no receiving end to be taken. -/
theorem stored_takeReceiver (e : Endpoint C) : e.takeReceiver.1.stored = 0 := by
  rw [takeReceiver]
  split
  · next ch hch =>
    by_cases hst : ch.custody = .stored <;> simp [stored, hst, hch]
  · next hnone => simp [stored, hnone]

theorem Reception.channel_eq {e : Endpoint C} {channel : Option (Channel (Event C))}
    (h : e.Reception .takeReceiver channel) : channel = e.takeReceiver.1.channel := by
  cases h with
  | asked => rfl
  | untouched hm | dropped hm => exact absurd rfl hm

theorem stored_le_of_forall {e f : Endpoint C}
    (h : ∀ ch' ∈ f.channel, ch'.custody = .stored → ∃ ch ∈ e.channel, ch.custody = .stored) :
    f.stored ≤ e.stored := by
  rcases Nat.le_one_iff_eq_zero_or_eq_one.mp f.stored_le_one with hnone | hone
  · omega
  · rcases stored_eq_one_iff.mp hone with ⟨ch', hch', hst⟩
    have he : e.stored = 1 := stored_eq_one_iff.mpr (h ch' hch' hst)
    omega

/-- A `listen` that succeeds finds no loop and no channel. -/
theorem Sound.loop_eq_none_of_granted {e : Endpoint C} (hs : e.Sound) {m : Move C}
    (h : e.granted m ≠ []) : e.loop = none ∧ e.channel = none := by
  cases m with
  | listen inRuntime requested answer =>
    by_cases hok : (e.listen inRuntime requested answer).2.1 = .ok .ok
    · rcases listen_of_ok hok with ⟨hc, hl, -⟩
      have hloop : e.loop = none := by simpa [hl] using hs.loop hc
      have hchannel := hs.channel
      rw [hloop] at hchannel
      exact ⟨hloop, by simpa using hchannel⟩
    · exact absurd (granted_of_ne_ok hok) h
  | _ => exact absurd rfl h

theorem hands_of_ne_takeReceiver {e : Endpoint C} {m : Move C} (hm : m ≠ .takeReceiver) :
    e.hands m = [] := by
  cases m with
  | takeReceiver => exact absurd rfl hm
  | _ => rfl

/-! ### One move -/

/-- A loop starts once for each `listen` that succeeds. -/
theorem Change.started_eq [Located C] {e f : Endpoint C} {m : Move C} {os : List (Occurrence C)}
    (h : Change e m f os) (hs : e.Sound) :
    (os.filter Occurrence.byLoop).countP Occurrence.isLoopStart + f.unstarted =
      e.unstarted + (e.granted m).length := by
  have hkeep (hos : ∀ o ∈ os, o.byLoop = false) (hl : f.loop = e.loop) (hm : e.granted m = []) :
      (os.filter Occurrence.byLoop).countP Occurrence.isLoopStart + f.unstarted =
        e.unstarted + (e.granted m).length := by
    rw [filter_byLoop_eq_nil hos, hm, unstarted, unstarted, hl]
    simp
  cases h with
  | aside hm hb hos =>
    exact hkeep (Occurrence.byLoop_of_not_onAcceptPath hos) hb.loop (granted_eq_nil (.inl hm))
  | receiving hm hos => exact hkeep hos rfl (granted_eq_nil (.inr hm))
  | refusal hr hos =>
    exact hkeep (Occurrence.byLoop_of_not_onAcceptPath hos) rfl (granted_of_ne_ok hr)
  | closing _ hos => exact hkeep (Occurrence.byLoop_of_not_onAcceptPath hos) rfl rfl
  | opening hr hc hl hos =>
    have hnone : e.loop = none := by simpa [hl] using hs.loop hc
    rw [filter_byLoop_eq_nil (Occurrence.byLoop_of_not_onAcceptPath hos), granted_of_ok hr,
      unstarted, unstarted, hnone]
    rfl
  | @piece l s _ _ hl hst hp =>
    rw [List.filter_eq_self.mpr hp.byLoop, unstarted_of_loop hl, hst]
    cases hp with
    | await | rest => rw [unstarted_of_loop hl, hst]; simp [granted]
    | leave hs | discard hs =>
      rw [unstarted_of_loop rfl]
      revert hs
      cases s <;> simp [granted, Station.leaves, Station.discards]
    | @enter _ retries | @send _ retries =>
      rw [unstarted_of_loop rfl]
      cases retries <;> simp [granted, Station.afterSending]
    | _ => rw [unstarted_of_loop rfl]; simp [granted]
  | answered hl hst | rung hl hst =>
    rw [unstarted_of_loop hl, hst, unstarted_of_loop rfl]
    rfl
  | _ => exact hkeep (List.forall_mem_nil _) rfl rfl

/-- The receiving end is handed over once at most for each `listen` that succeeds. -/
theorem Change.handed_le [Located C] {e f : Endpoint C} {m : Move C} {os : List (Occurrence C)}
    (h : Change e m f os) :
    (e.hands m).count true + f.stored ≤ e.stored + (e.granted m).length := by
  by_cases hm : m = .takeReceiver
  · subst hm
    cases h with
    | aside hm => cases hm
    | receiving _ _ _ hr =>
      rw [hr.channel_eq]
      change List.count true [e.takeReceiver.2] + e.takeReceiver.1.stored ≤ e.stored + 0
      rw [stored_takeReceiver, Nat.add_zero, Nat.add_zero]
      cases hgiven : e.takeReceiver.2 with
      | false => exact Nat.zero_le _
      | true =>
        rw [takeReceiver_iff.mp hgiven]
        exact Nat.le_refl 1
  rw [hands_of_ne_takeReceiver hm, List.count_nil, Nat.zero_add]
  -- Where nothing is granted, a receiving end that is stored has been stored before.
  by_cases hgranted : e.granted m = []
  · refine Nat.le_trans (stored_le_of_forall ?_) (Nat.le_add_right ..)
    intro ch' hch' hst
    rcases h.custody ch' hch' with
      ⟨-, _, _, _, rfl, hok⟩ | ⟨ch, hch, hsame | hdropped | ⟨hstored, -⟩⟩
    · rw [granted_of_ok hok] at hgranted; cases hgranted
    · exact ⟨ch, hch, hsame ▸ hst⟩
    · rw [hst] at hdropped; cases hdropped
    · exact ⟨ch, hch, hstored⟩
  · have hone : f.stored ≤ 1 := f.stored_le_one
    have hmore := List.length_pos_iff.mpr hgranted
    omega

end Endpoint

namespace Crowd

variable {C : Type} [Located C]

/-! ### Runs -/

/-- What those are told who ask for the receiving end in a run. -/
def handed (s : Crowd C) (ts : List (Turn C)) : List Bool :=
  gather next (fun s t => s.endpoint.hands (s.image t)) s ts

theorem started_after (role : Role) (ipc : Bool) (config : Config) (ts : List (Turn C)) :
    ((start role ipc config).doings ts).countP Occurrence.isLoopStart +
        ((start role ipc config).after ts).endpoint.unstarted =
      ((start role ipc config).backlogs ts).length := by
  induction ts using List.reverseRecOn with
  | nil => rfl
  | append_singleton ts t ih =>
    rcases ((start role ipc config).after ts).change_step t with ⟨os, hc, ho⟩
    have hstep := hc.started_eq (sound_after role ipc config ts)
    rw [doings, backlogs, gather_concat after, gather_concat after, Runs.concat after,
      List.countP_append, List.length_append, ← ho]
    rw [doings, backlogs] at ih
    omega

theorem handed_after (role : Role) (ipc : Bool) (config : Config) (ts : List (Turn C)) :
    ((start role ipc config).handed ts).count true +
        ((start role ipc config).after ts).endpoint.stored ≤
      ((start role ipc config).backlogs ts).length := by
  induction ts using List.reverseRecOn with
  | nil => exact Nat.le_refl 0
  | append_singleton ts t ih =>
    rcases ((start role ipc config).after ts).change_step t with ⟨os, hc, -⟩
    have hstep := hc.handed_le
    rw [handed, backlogs, gather_concat after, gather_concat after, Runs.concat after,
      List.count_append, List.length_append]
    rw [handed, backlogs] at ih
    omega

theorem length_backlogs_le_one (role : Role) (ipc : Bool) (config : Config)
    (ts : List (Turn C)) : ((start role ipc config).backlogs ts).length ≤ 1 := by
  have ha := admitted_after role ipc config ts (C := C)
  cases hl : ((start role ipc config).after ts).endpoint.loop with
  | none => simp [ha.fresh hl]
  | some l => simp [(ha.bounded l hl).1]

/-- One loop, one accept, one receiving end. In the whole life of an endpoint, however callers come
    between the steps of others, at most one `listen` succeeds, and where it does there has been
    neither loop nor channel; a loop starts once for it, and no other starts; at most one accept is
    pending at any time; and the receiving end is handed over at most once, to someone who asks
    after that `listen` and before the close. -/
theorem one_of_each (role : Role) (ipc : Bool) (config : Config) (ts : List (Turn C)) :
    let fresh : Crowd C := start role ipc config
    let s := fresh.after ts
    (fresh.backlogs ts).length ≤ 1 ∧
    (∀ t, s.endpoint.granted (s.image t) ≠ [] →
      s.endpoint.loop = none ∧ s.endpoint.channel = none) ∧
    ((fresh.doings ts).countP Occurrence.isLoopStart + s.endpoint.unstarted =
      (fresh.backlogs ts).length) ∧
    ((fresh.doings ts).countP Occurrence.isAcceptCall =
      (fresh.answers ts).length + if s.endpoint.awaitsAccept then 1 else 0) ∧
    (fresh.handed ts).count true ≤ (fresh.backlogs ts).length ∧
    (s.endpoint.takeReceiver.2 = true →
      (fresh.backlogs ts).length = 1 ∧ (fresh.handed ts).count true = 0 ∧
        s.endpoint.isClosed = false) := by
  intro fresh s
  have hs : s.endpoint.Sound := sound_after role ipc config ts
  have hone : (fresh.backlogs ts).length ≤ 1 := length_backlogs_le_one role ipc config ts
  have hhanded : (fresh.handed ts).count true + s.endpoint.stored ≤ (fresh.backlogs ts).length :=
    handed_after role ipc config ts
  refine ⟨hone, ?_, started_after role ipc config ts, ?_, Nat.le_of_add_right_le hhanded, ?_⟩
  · intro t hgranted
    exact hs.loop_eq_none_of_granted hgranted
  · rw [← Endpoint.pending_eq_ite]
    exact pending_after role ipc config ts
  · intro hgiven
    have hstored : s.endpoint.stored = 1 := Endpoint.takeReceiver_iff.mp hgiven
    refine ⟨by omega, by omega, ?_⟩
    cases hc : s.endpoint.isClosed with
    | false => rfl
    | true =>
      rcases Endpoint.stored_eq_one_iff.mp hstored with ⟨ch, hch, hst⟩
      exact absurd hst ((hs.vacant (Endpoint.isListening_of_isClosed hc)).2.2 ch hch)

/-- A second `listen` comes while the loop awaits an accept, and nobody has asked for the receiving
    end yet. -/
def twiceListening : List (Turn Link) :=
  [.move (.bind "a"), .move (.listen true 1 (.ok "a")), .move .work, .move .work, .move .work,
    .move (.listen true 1 (.ok "b"))]

theorem one_of_each_of_twiceListening :
    let fresh : Crowd Link := start .server false Scene.fixedBacklog
    (fresh.after twiceListening).endpoint.takeReceiver.2 = true ∧
      (fresh.backlogs twiceListening).length = 1 ∧
      (fresh.handed twiceListening).count true = 0 ∧
      (fresh.doings twiceListening).countP Occurrence.isLoopStart = 1 ∧
      (fresh.handed (twiceListening ++
        [.move .takeReceiver, .move .takeReceiver])) = [true, false] := by
  intro fresh
  have hgiven : (fresh.after twiceListening).endpoint.takeReceiver.2 = true := by decide
  rcases one_of_each .server false Scene.fixedBacklog twiceListening with ⟨-, -, -, -, -, hlaw⟩
  rcases hlaw hgiven with ⟨hone, hnone, -⟩
  exact ⟨hgiven, hone, hnone, by decide, by decide⟩

end Crowd

end LocalEndpoint
