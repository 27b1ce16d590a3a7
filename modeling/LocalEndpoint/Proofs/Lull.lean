import LocalEndpoint.Proofs.Backoff

/-! The pause after a cycle that came to nothing. A cycle is in trouble if it is throttled, or if
    its accept fails (`troubled`). The loop does not begin another one before it has waited out a
    delay, and no delay is shorter than a millisecond, whatever is configured: the timing is
    normalized, and doubling makes no delay shorter. So a millisecond at least lies between
    (`lull`), provided that the runtime does not let a delay end at once because it is too long for
    it (`Timer.Patient`). -/

namespace LocalEndpoint

/-- A timer that lets no delay end within a millisecond because it cannot represent its end. -/
def Timer.Patient (timer : Timer) : Prop :=
  ∀ t delay, timer.represents t delay = false → 1000000 ≤ delay.nanos →
    t + 1000000 ≤ timer.rings t delay

theorem Timer.Patient.le_rings {timer : Timer} (h : timer.Patient) (t : Nat) {delay : Span}
    (hlong : 1000000 ≤ delay.nanos) : t + 1000000 ≤ timer.rings t delay := by
  cases hrep : timer.represents t delay with
  | true =>
    rw [timer.rings_eq t delay hrep, firstMilli]
    omega
  | false => exact h t delay hrep hlong

theorem Timer.patient_rehearsed : Timer.rehearsed.Patient := by
  intro t delay _ hlong
  change t + 1000000 ≤ Rehearsal.napEnd ((t + 999999) / 1000000) delay * 1000000
  have hnap : 1 ≤ min ((delay.nanos + 999999) / 1000000) Rehearsal.longestNap := by
    have hlongest : 1 ≤ Rehearsal.longestNap := by decide
    omega
  rw [Rehearsal.napEnd]
  omega

/-- Whether the last cycle is in trouble, after one more beat. -/
def Beat.troubles (before : Bool) : Beat → Bool
  | .cycle n backlog => backlog.any (· < n)
  | .settled code => code ≠ .ok
  | _ => before

/-- Whether the last cycle has been throttled, or its accept has failed. -/
def troubled (beats : List (Nat × Beat)) : Bool :=
  beats.foldl (fun before x => x.2.troubles before) false

theorem troubled_concat (beats : List (Nat × Beat)) (now : Nat) (beat : Beat) :
    troubled (beats ++ [(now, beat)]) = beat.troubles (troubled beats) := by
  rw [troubled, List.foldl_append]
  rfl

theorem spell_concat (beats : List (Nat × Beat)) (now : Nat) (beat : Beat) :
    spell (beats ++ [(now, beat)]) = beat.count (spell beats) :=
  spell_append beats now [beat]

/-- The last beat began a delay of a millisecond or more, and so much time has passed since. -/
def Rested (now : Nat) (beats : List (Nat × Beat)) : Prop :=
  ∃ t delay, beats.getLast? = some (t, .sleep delay) ∧ 1000000 ≤ delay.nanos ∧ t + 1000000 ≤ now

theorem Rested.later {now now' : Nat} {beats : List (Nat × Beat)} (h : Rested now beats)
    (hle : now ≤ now') : Rested now' beats := by
  obtain ⟨t, delay, hlast, hlong, hpast⟩ := h
  exact ⟨t, delay, hlast, hlong, by omega⟩

/-- What the loop keeps to where it stands: it is on its way to a delay after trouble, or has
    rested. -/
def Station.Minds {C : Type} (now : Nat) (beats : List (Nat × Beat)) : Station C → Prop
  | .starting | .calling | .accepting | .settling _ => troubled beats = false
  | .offering _ retries | .reserving _ retries | .admitting _ retries =>
    troubled beats = true → retries = true
  | .cycling | .waking => troubled beats = true → Rested now beats
  | _ => True

theorem Station.Minds.later {C : Type} {now now' : Nat} {beats : List (Nat × Beat)}
    {s : Station C} (h : s.Minds now beats) (hle : now ≤ now') : s.Minds now' beats := by
  cases s with
  | cycling | waking => exact fun ht => (h ht).later hle
  | _ => exact h

namespace Endpoint

variable {C : Type} {now alarm : Nat} {timer : Timer} {e f : Endpoint C}
  {beats : List (Nat × Beat)}

/-- The loop keeps to the pause. -/
def Minded (now : Nat) (beats : List (Nat × Beat)) (e : Endpoint C) : Prop :=
  ∀ l ∈ e.loop, l.station.Minds now beats

theorem minded_of_loop {l : AcceptLoop C} {s : Station C}
    (hf : f.loop = some { l with station := s }) (hs : s.Minds now beats) : f.Minded now beats := by
  intro l' hl'
  rw [hf] at hl'
  cases hl'
  exact hs

/-- A loop that stands here minds the beats with the next one among them. -/
theorem Piece.minded [Located C] {l : AcceptLoop C} {s : Station C} {os : List (Occurrence C)}
    (hp : Piece e l s f os) (hl : e.loop = some l) (hs : l.station = s)
    (ho : e.isClosed = false) (hb : e.backlog = some l.backlog)
    (hpaced : e.Paced timer now alarm beats) (hpatient : timer.Patient)
    (hlong : ∀ t delay, beats.getLast? = some (t, .sleep delay) → 1000000 ≤ delay.nanos)
    (h : e.Minded now beats) :
    f.Minded now (beats ++ (e.beats f os .work).map (now, ·)) := by
  have hopen (hc : e.isClosed = true) : False := by rw [ho] at hc; cases hc
  have hm : s.Minds now beats := hs ▸ h l hl
  rw [hp.beats_eq hl hs]
  -- Without a beat the list stays as it is.
  have hsilent {s' : Station C} {f : Endpoint C} (hf : f.loop = some { l with station := s' })
      (hnone : e.beatAt? s = none) (hs' : s'.Minds now beats) :
      f.Minded now (beats ++ ((e.beatAt? s).toList).map (now, ·)) := by
    rw [hnone, Option.toList_none, List.map_nil, List.append_nil]
    exact minded_of_loop hf hs'
  have hstruck {s' : Station C} {f : Endpoint C} {beat : Beat}
      (hf : f.loop = some { l with station := s' }) (hbeat : e.beatAt? s = some beat)
      (hs' : s'.Minds now (beats ++ [(now, beat)])) :
      f.Minded now (beats ++ ((e.beatAt? s).toList).map (now, ·)) := by
    rw [hbeat]
    exact minded_of_loop hf hs'
  cases hp with
  | leave _ hc | discard _ hc => exact (hopen hc).elim
  | await | rest => simpa [beatAt?] using h
  | begin =>
    refine hsilent rfl rfl ?_
    intro ht
    rw [hm] at ht
    cases ht
  | throttle | recede | count | nap | sleepOn | forsake | stop =>
    exact minded_of_loop rfl trivial
  | cycle _ hx =>
    have hle : e.count ≤ l.backlog := by simpa [Occupancy.exceeds, Endpoint.count] using hx
    refine hstruck rfl (by rw [beatAt?, ho, hb]; rfl) ?_
    rw [Station.Minds, troubled_concat]
    simpa [Beat.troubles] using hle
  | call =>
    refine hstruck rfl rfl ?_
    rw [Station.Minds, troubled_concat]
    exact hm
  | succeed =>
    refine hstruck rfl (by rw [beatAt?, ho]; rfl) ?_
    intro ht
    rw [troubled_concat] at ht
    cases ht
  | fail => exact hstruck rfl (by rw [beatAt?, ho]; rfl) fun _ => rfl
  | offer | reserve | block => exact hsilent rfl rfl hm
  | @enter event retries | @send event retries =>
    refine hstruck rfl (by rw [beatAt?, ho]; rfl) ?_
    cases retries with
    | true => trivial
    | false =>
      intro ht
      rw [troubled_concat] at ht
      exact Bool.noConfusion (hm ht)
  | @wake delay =>
    refine hsilent rfl rfl ?_
    intro _
    obtain ⟨last, hlast, hheads⟩ := hpaced.heads l hl
    rw [hs] at hheads
    obtain ⟨t, rfl, halarm, -, -, hrung⟩ := hheads
    have hmilli : 1000000 ≤ delay.nanos := hlong t delay hlast
    have hring : t + 1000000 ≤ timer.rings t delay := hpatient.le_rings t hmilli
    have hpast : alarm ≤ now := hrung rfl
    exact ⟨t, delay, hlast, hmilli, by omega⟩
  | resume => exact hsilent rfl rfl hm

theorem cycling_of_beatAt? {s : Station C} {n : Size} {b : Option Size}
    (h : e.beatAt? s = some (.cycle n b)) : e.isClosed = false ∧ s = .cycling := by
  unfold beatAt? at h
  split at h <;> simp_all

end Endpoint

namespace Clocked

variable {C : Type} [Located C] {timer : Timer} {c : Clocked C} {beats : List (Nat × Beat)}

omit [Located C] in
/-- No delay that the loop has begun is shorter than a millisecond. -/
theorem Lawful.long {t : Timing} (h : Lawful t c beats) {t₀ : Nat} {delay : Span}
    (hlast : beats.getLast? = some (t₀, .sleep delay)) : 1000000 ≤ delay.nanos := by
  obtain ⟨part, rfl⟩ := List.getLast?_eq_some_iff.mp hlast
  have hspells : t.Spells (spell (part ++ [(t₀, .sleep delay)])) := h.spells _ List.prefix_rfl
  have hmem : delay ∈ spell (part ++ [(t₀, .sleep delay)]) := by
    rw [spell_concat, Beat.count]
    exact List.mem_append_right _ (List.mem_singleton_self _)
  have hfloor : t.floor ≤ delay.nanos := (hspells.bounds hmem).1
  have hmilli : 1000000 ≤ t.floor := Nat.le_max_left ..
  omega

theorem minded_move {m : Move C} (hs : c.scene.endpoint.Sound)
    (ho : (c.scene.next m).endpoint.isClosed = false)
    (hpaced : c.scene.endpoint.Paced timer c.now c.alarm beats) (hpatient : timer.Patient)
    (hlong : ∀ t delay, beats.getLast? = some (t, .sleep delay) → 1000000 ≤ delay.nanos)
    (h : c.scene.endpoint.Minded c.now beats) :
    (c.scene.next m).endpoint.Minded c.now (beats ++ (c.scene.beats m).map (c.now, ·)) := by
  have hc := c.scene.change_step m
  rw [Scene.beats]
  generalize (c.scene.next m).endpoint = f, (c.scene.step m).2 = os at hc ho
  have hkeep (hl : f.loop = c.scene.endpoint.loop) (hb : c.scene.endpoint.beats f os m = []) :
      f.Minded c.now (beats ++ (c.scene.endpoint.beats f os m).map (c.now, ·)) := by
    rw [hb, List.map_nil, List.append_nil, Endpoint.Minded, hl]
    exact h
  cases hc with
  | aside hm hb => exact hkeep hb.loop (Endpoint.beats_of_aside hm)
  | receiving hm => exact hkeep rfl (Endpoint.beats_of_receives hm)
  | refusal hr => exact hkeep rfl (Endpoint.beats_of_ne_ok hr)
  | opening hr hc hl =>
    have hnone : c.scene.endpoint.loop = none := by simpa [hl] using hs.loop hc
    rw [hpaced.fresh hnone, Endpoint.beats_of_ok hr]
    intro l hl
    cases hl
    rfl
  | closing => cases ho
  | piece hl hst hp =>
    have hc : c.scene.endpoint.isClosed = false := hp.isClosed_eq.symm.trans ho
    exact hp.minded hl hst hc (hs.backlog_of_loop hl hc) hpaced hpatient hlong h
  | noLoop hl => exact hkeep rfl (by simp [Endpoint.beats, Endpoint.stir?, hl])
  | @answered l outcome hl hst =>
    have hm := h l hl
    rw [hst] at hm
    have hstays : (c.scene.endpoint.moveTo l (.settling outcome)).Minded c.now beats :=
      Endpoint.minded_of_loop rfl hm
    simpa [Endpoint.beats] using hstays
  | rung hl => exact Endpoint.minded_of_loop rfl trivial
  | _ => exact hkeep rfl rfl

theorem minded_after (hpatient : timer.Patient) (role : Role) (ipc : Bool) (config : Config)
    (ks : List (Tick C)) :
    let c := (start role ipc config).after timer ks
    c.scene.endpoint.isClosed = false →
      c.scene.endpoint.Minded c.now ((start role ipc config).beats timer ks) := by
  intro c ho
  induction ks using List.reverseRecOn with
  | nil => intro l hl; cases hl
  | append_singleton ks k ih =>
    have hs : ((start role ipc config).after timer ks).scene.endpoint.Sound :=
      sound_after timer role ipc config ks
    simp only [c, Runs.concat (after (C := C) timer), beats_concat] at ho ⊢
    have hbefore : ((start role ipc config).after timer ks).scene.endpoint.isClosed = false := by
      cases hc : ((start role ipc config).after timer ks).scene.endpoint.isClosed with
      | false => rfl
      | true => rw [isClosed_next k hc] at ho; cases ho
    have hpaced := paced_after timer role ipc config ks hbefore
    have hlawful := lawful_after timer role ipc config ks
    have hih := ih hbefore
    cases k with
    | move m =>
      rw [next, step] at ho ⊢
      split
      · next hm =>
        rw [if_pos hm] at ho
        exact minded_move hs ho hpaced hpatient (fun _ _ => hlawful.long) hih
      · rwa [List.append_nil]
    | pass span =>
      rw [next, step]
      split
      · rw [List.append_nil]
        intro l hl
        exact (hih l hl).later (Nat.le_add_right ..)
      · rwa [List.append_nil]

/-- A cycle begins on an open endpoint whose loop stands before one. -/
theorem cycling_of_mem_beats {s : Scene C} {m : Move C} {n : Size} {b : Option Size}
    (h : .cycle n b ∈ s.beats m) :
    s.endpoint.isClosed = false ∧ ∃ l ∈ s.endpoint.loop, l.station = .cycling := by
  cases m with
  | work =>
    cases hl : s.endpoint.loop with
    | none =>
      have hnone : s.beats .work = [] := by
        simp [Scene.beats, Endpoint.beats, Scene.step, Scene.put, Endpoint.stir?, hl,
          Endpoint.advance_of_loop_eq_none hl]
      rw [hnone] at h
      cases h
    | some l =>
      have hbeats : s.beats .work = (s.endpoint.beatAt? l.station).toList :=
        (Endpoint.piece_advance hl).beats_eq hl rfl
      rw [hbeats, Option.mem_toList] at h
      obtain ⟨ho, hst⟩ := Endpoint.cycling_of_beatAt? h
      exact ⟨ho, l, rfl, hst⟩
  | listen inRuntime requested answer =>
    rw [Scene.beats, Endpoint.beats] at h
    split at h <;> simp at h
  | _ => cases h

/-- After trouble the next cycle begins a millisecond after a delay has begun, at the earliest. -/
theorem lull (hpatient : timer.Patient) (role : Role) (ipc : Bool) (config : Config)
    (ks : List (Tick C)) {part : List (Nat × Beat)} {t : Nat} {n : Size} {b : Option Size}
    (hpart : part ++ [(t, .cycle n b)] <+: (start role ipc config).beats timer ks)
    (ht : troubled part = true) : Rested t part := by
  induction ks using List.reverseRecOn with
  | nil => simp [beats, gather] at hpart
  | append_singleton ks k ih =>
    rw [beats_concat] at hpart
    cases k with
    | pass span =>
      have hnone : (((start role ipc config).after timer ks).step timer (.pass span)).2 = [] := by
        rw [step]
        split <;> rfl
      rw [hnone, List.append_nil] at hpart
      exact ih hpart
    | move m =>
      have hs := sound_after (C := C) timer role ipc config ks
      have hdraws := (((start role ipc config).after timer ks).scene.change_step m).draws hs
      rw [step] at hpart
      split at hpart
      case isFalse =>
        rw [List.append_nil] at hpart
        exact ih hpart
      rcases hdraws.eq_nil_or_singleton with hnone | ⟨beat, hone⟩
      · rw [Scene.beats, hnone, List.map_nil, List.append_nil] at hpart
        exact ih hpart
      change ((start role ipc config).after timer ks).scene.beats m = [beat] at hone
      rw [hone, List.map_singleton, List.prefix_concat_iff] at hpart
      rcases hpart with heq | hpart
      · obtain ⟨rfl, hlast⟩ := List.append_inj' heq rfl
        cases hlast
        obtain ⟨ho, l, hl, hst⟩ := cycling_of_mem_beats (hone ▸ List.mem_singleton_self _)
        have hm := minded_after hpatient role ipc config ks ho l hl
        rw [hst] at hm
        exact hm ht
      · exact ih hpart

end Clocked

end LocalEndpoint
