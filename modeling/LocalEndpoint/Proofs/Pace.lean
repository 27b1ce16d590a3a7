import LocalEndpoint.Proofs.Delivery
import LocalEndpoint.Proofs.Scene.Clocked
import Mathlib.Data.List.Chain

/-! How an accept loop keeps time. Which beat can follow which, and when, is a small diagram:

    opened ─▶ cycle ─▶ accept ··▶ settled ··▶ sent        ─▶ at once
              ▲   └─▶ sleep ◀───────────────── │           ··▶ when the provider answers, or when
              ├────── when it is over          │               there is room
              └────────────────────────────────┘

    The beats of an open endpoint follow it (`Paced`), and unless the next one lies with the
    provider or the consumer, it comes (`goesOn`). -/

namespace LocalEndpoint

/-- Which beat can follow which, and when. -/
inductive Follows (timer : Timer) : Nat × Beat → Nat × Beat → Prop
  | opened {t n b} : Follows timer (t, .opened) (t, .cycle n b)
  | admitted {t n b} (h : n ≤ b) : Follows timer (t, .cycle n (some b)) (t, .accept)
  | throttled {t n b delay} (h : b < n) : Follows timer (t, .cycle n (some b)) (t, .sleep delay)
  | settled {t t' code} (h : t ≤ t') : Follows timer (t, .accept) (t', .settled code)
  | sent {t t' code} (h : t ≤ t') : Follows timer (t, .settled code) (t', .sent code)
  | delivered {t n b} : Follows timer (t, .sent .ok) (t, .cycle n b)
  | failed {t code delay} (h : code ≠ .ok) : Follows timer (t, .sent code) (t, .sleep delay)
  | slept {t t' delay n b} (ht : t ≤ t')
      (h : timer.represents t delay = true → t' = firstMilli (t + delay.nanos)) :
      Follows timer (t, .sleep delay) (t', .cycle n b)

namespace Follows

variable {timer : Timer} {last : Nat × Beat} {t t' : Nat} {code : Code}

/-- An accept may take longer to settle. -/
theorem later_settled (h : Follows timer last (t, .settled code)) (ht : t ≤ t') :
    Follows timer last (t', .settled code) := by
  cases h with
  | settled h => exact .settled (Nat.le_trans h ht)

/-- An event may wait longer for room. -/
theorem later_sent (h : Follows timer last (t, .sent code)) (ht : t ≤ t') :
    Follows timer last (t', .sent code) := by
  cases h with
  | sent h => exact .sent (Nat.le_trans h ht)

end Follows

/-- How long a beat can be the last one. -/
def Beat.Lasts (timer : Timer) (t now : Nat) : Beat → Prop
  | .opened | .cycle _ _ | .sent _ => now = t
  | .accept | .settled _ => t ≤ now
  | .sleep delay => t ≤ now ∧ (timer.represents t delay = true → now ≤ firstMilli (t + delay.nanos))

/-- Whether it lies with the provider or the consumer when another beat follows. -/
def Beat.pends : Beat → Bool
  | .accept | .settled _ => true
  | _ => false

namespace Station

variable {C : Type}

/-- What the last beat says about a loop that stands here: its next beat may come now. -/
def Heads (timer : Timer) (now alarm : Nat) (last : Nat × Beat) : Station C → Prop
  | .starting | .cycling | .waking => ∀ n b, Follows timer last (now, .cycle n b)
  | .calling => Follows timer last (now, .accept)
  | .accepting | .settling _ => ∀ code, Follows timer last (now, .settled code)
  | .offering event retries | .reserving event retries | .admitting event retries =>
    (event.code = .ok ↔ retries = false) ∧ Follows timer last (now, .sent event.code)
  | .receding => ∀ delay, Follows timer last (now, .sleep delay)
  | .counting delay => last = (now, .sleep delay)
  | .napping delay rung | .timing delay rung =>
    ∃ t, last = (t, .sleep delay) ∧ alarm = timer.rings t delay ∧ t ≤ now ∧ now ≤ alarm ∧
      (rung = true → alarm ≤ now)
  | .stopping | .stopped => ∃ code, Follows timer last (now, .sent code)

/-- The last beat has not lasted too long. -/
theorem Heads.lasts {timer : Timer} {now alarm t : Nat} {beat : Beat} {s : Station C}
    (h : s.Heads timer now alarm (t, beat)) : beat.Lasts timer t now := by
  have hcycle (h : ∀ n b, Follows timer (t, beat) (now, .cycle n b)) : beat.Lasts timer t now := by
    cases h 0 none with
    | opened | delivered => exact rfl
    | slept ht h => exact ⟨ht, fun hrep => Nat.le_of_eq (h hrep)⟩
  have hsent {code : Code} (h : Follows timer (t, beat) (now, .sent code)) :
      beat.Lasts timer t now := by
    cases h with
    | sent hle => exact hle
  have hnap {delay : Span} (hle : t ≤ now) (hlate : now ≤ timer.rings t delay) :
      (Beat.sleep delay).Lasts timer t now :=
    ⟨hle, fun hrep => timer.rings_eq t delay hrep ▸ hlate⟩
  cases s with
  | starting | cycling | waking => exact hcycle h
  | calling =>
    cases h with
    | admitted => exact rfl
  | accepting | settling =>
    cases h .ok with
    | settled h => exact h
  | offering | reserving | admitting => exact hsent h.2
  | receding =>
    cases h Span.longest with
    | throttled | failed => exact rfl
  | counting delay =>
    cases h
    exact hnap (Nat.le_refl _) (timer.le_rings ..)
  | napping delay rung | timing delay rung =>
    obtain ⟨_, hlast, rfl, hle, hlate, -⟩ := h
    cases hlast
    exact hnap hle hlate
  | stopping | stopped =>
    obtain ⟨_, h⟩ := h
    exact hsent h

end Station

namespace Endpoint

variable {C : Type}

/-- The beats follow each other, and the last one heads the loop's station. -/
structure Paced (timer : Timer) (now alarm : Nat) (e : Endpoint C) (beats : List (Nat × Beat)) :
    Prop where
  chain : beats.IsChain (Follows timer)
  fresh : e.loop = none → beats = []
  heads : ∀ l ∈ e.loop, ∃ last, beats.getLast? = some last ∧ l.station.Heads timer now alarm last

namespace Paced

variable {timer : Timer} {now alarm : Nat} {e f : Endpoint C} {l : AcceptLoop C}
  {beats : List (Nat × Beat)}

/-- The loop stays where it is. -/
theorem keep (h : e.Paced timer now alarm beats) (hl : f.loop = e.loop) :
    f.Paced timer now alarm beats := ⟨h.chain, hl ▸ h.fresh, hl ▸ h.heads⟩

/-- The loop goes on without a beat. -/
theorem goOn {s s' : Station C} {alarm' : Nat} {new : List Beat} (h : e.Paced timer now alarm beats)
    (hl : e.loop = some l) (hs : l.station = s) (hf : f.loop = some { l with station := s' })
    (hnew : new = []) (hh : ∀ last, s.Heads timer now alarm last → s'.Heads timer now alarm' last) :
    f.Paced timer now alarm' (beats ++ new.map (now, ·)) := by
  obtain ⟨last, hlast, hheads⟩ := h.heads l hl
  rw [hnew, List.map_nil, List.append_nil]
  refine ⟨h.chain, ?_, ?_⟩
  · intro hn
    rw [hf] at hn
    cases hn
  · intro l' hl'
    rw [hf] at hl'
    cases hl'
    exact ⟨last, hlast, hh last (hs ▸ hheads)⟩

/-- The loop goes on with a beat. -/
theorem strike {s s' : Station C} {alarm' : Nat} {new : List Beat} {beat : Beat}
    (h : e.Paced timer now alarm beats) (hl : e.loop = some l) (hs : l.station = s)
    (hf : f.loop = some { l with station := s' }) (hnew : new = [beat])
    (hh : ∀ last, s.Heads timer now alarm last →
      Follows timer last (now, beat) ∧ s'.Heads timer now alarm' (now, beat)) :
    f.Paced timer now alarm' (beats ++ new.map (now, ·)) := by
  obtain ⟨last, hlast, hheads⟩ := h.heads l hl
  obtain ⟨hfollows, hnext⟩ := hh last (hs ▸ hheads)
  rw [hnew, List.map_singleton]
  refine ⟨?_, ?_, ?_⟩
  · rw [List.isChain_append]
    refine ⟨h.chain, List.isChain_singleton _, ?_⟩
    intro x hx y hy
    rw [hlast] at hx
    cases hx
    cases hy
    exact hfollows
  · intro hn
    rw [hf] at hn
    cases hn
  · intro l' hl'
    rw [hf] at hl'
    cases hl'
    exact ⟨_, List.getLast?_concat, hnext⟩

theorem lasts (h : e.Paced timer now alarm beats) {t : Nat} {beat : Beat}
    (hlast : beats.getLast? = some (t, beat)) : beat.Lasts timer t now := by
  cases hl : e.loop with
  | none => rw [h.fresh hl] at hlast; cases hlast
  | some l =>
    obtain ⟨last, hlast', hheads⟩ := h.heads l hl
    obtain rfl : last = (t, beat) := Option.some.inj (hlast'.symm.trans hlast)
    exact hheads.lasts

end Paced

/-- The beat of a piece of work at a station. -/
def beatAt? (e : Endpoint C) : Station C → Option Beat
  | .calling => some .accept
  | .cycling => if e.isClosed then none else some (.cycle e.count e.backlog)
  | .settling (.ok _) => if e.isClosed then none else some (.settled .ok)
  | .settling (.error f) => if e.isClosed then none else some (.settled (Code.forAccept f))
  | .admitting event _ => if e.isClosed then none else some (.sent event.code)
  | .receding => if e.isClosed then none else some (.sleep e.retry.next)
  | _ => none

/-- On a closed endpoint nothing has a beat any more but an accept that was about to begin. -/
theorem beatAt?_of_isClosed {e : Endpoint C} (hc : e.isClosed = true) {s : Station C}
    (hs : s ≠ .calling) : e.beatAt? s = none := by
  unfold beatAt?
  split <;> simp_all

theorem Piece.beats_eq [Located C] {e f : Endpoint C} {l : AcceptLoop C} {s : Station C}
    {os : List (Occurrence C)} (hp : Piece e l s f os) (hl : e.loop = some l)
    (hs : l.station = s) : e.beats f os .work = (e.beatAt? s).toList := by
  change os.filterMap Occurrence.beat? ++ (e.stir? f).toList = _
  obtain ⟨b, s₀⟩ := l
  cases hs
  cases hp with
  | leave hs hc =>
    cases s₀ with
    | cycling | receding | offering | napping | waking => simp [stir?, beatAt?, hl, hc, moveTo]
    | _ => cases hs
  | discard hs hc =>
    cases s₀ with
    | settling o => cases o <;> simp [stir?, beatAt?, hl, hc, Occurrence.beat?]
    | admitting event retries => simp [stir?, beatAt?, hl, hc, Occurrence.beat?]
    | _ => cases hs
  | throttle hc | cycle hc | succeed hc | recede hc =>
    simp [stir?, beatAt?, hl, hc, moveTo, Occurrence.beat?, Event.accepted]
  | fail hc | enter hc | send hc =>
    simp [stir?, beatAt?, hl, hc, Occurrence.beat?, List.filterMap_cons, Event.failed]
  | _ => simp [stir?, beatAt?, hl, Occurrence.beat?]

/-- The loop does a piece of its work, while the endpoint is open. -/
theorem Paced.piece [Located C] {timer : Timer} {now alarm : Nat} {e f : Endpoint C}
    {l : AcceptLoop C} {beats : List (Nat × Beat)} {s : Station C} {os : List (Occurrence C)}
    (h : e.Paced timer now alarm beats) (hb : e.backlog = some l.backlog) (hl : e.loop = some l)
    (hs : l.station = s) (ho : e.isClosed = false) (hp : Piece e l s f os) :
    f.Paced timer now (s.alarm timer now alarm)
      (beats ++ (e.beats f os .work).map (now, ·)) := by
  have hopen (hc : e.isClosed = true) : False := by rw [ho] at hc; cases hc
  have hle (hx : e.occupancy.exceeds l.backlog = false) : e.count ≤ l.backlog := by
    simpa [Occupancy.exceeds, Endpoint.count] using hx
  have hlt (hx : e.occupancy.exceeds l.backlog = true) : l.backlog < e.count := by
    simpa [Occupancy.exceeds, Endpoint.count] using hx
  have hcycle : (e.beatAt? .cycling).toList = [.cycle e.count (some l.backlog)] := by
    simp [beatAt?, ho, hb]
  rw [hp.beats_eq hl hs]
  cases hp with
  | leave _ hc | discard _ hc => exact (hopen hc).elim
  | await | rest => exact h.goOn hl hs (by rw [hl, ← hs]) rfl fun _ hh => hh
  | begin | offer | reserve | block | nap | sleepOn | resume | stop =>
    exact h.goOn hl hs rfl rfl fun _ hh => hh
  | forsake => exact h.goOn hl hs rfl rfl fun _ hh => ⟨_, hh.2⟩
  | throttle _ hx =>
    exact h.strike hl hs rfl hcycle fun _ hh => ⟨hh _ _, fun _ => .throttled (hlt hx)⟩
  | cycle _ hx => exact h.strike hl hs rfl hcycle fun _ hh => ⟨hh _ _, .admitted (hle hx)⟩
  | call => exact h.strike hl hs rfl rfl fun _ hh => ⟨hh, fun _ => .settled (Nat.le_refl _)⟩
  | succeed =>
    exact h.strike hl hs rfl (by rw [beatAt?, ho]; rfl)
      fun _ hh => ⟨hh _, by simp [Event.accepted], .sent (Nat.le_refl _)⟩
  | fail =>
    exact h.strike hl hs rfl (by rw [beatAt?, ho]; rfl)
      fun _ hh => ⟨hh _, by simp [Event.failed, Code.forAccept_ne_ok], .sent (Nat.le_refl _)⟩
  | @enter event retries | @send event retries =>
    refine h.strike hl hs rfl (by rw [beatAt?, ho]; rfl) fun _ ⟨hcode, hh⟩ => ⟨hh, ?_⟩
    cases retries with
    | false => rw [hcode.mpr rfl]; exact fun _ _ => .delivered
    | true => exact fun _ => .failed fun hok => Bool.noConfusion (hcode.mp hok)
  | recede =>
    exact h.strike hl hs rfl (by rw [beatAt?, ho]; rfl) fun _ hh => ⟨hh _, rfl⟩
  | count =>
    exact h.goOn hl hs rfl rfl fun _ hh =>
      ⟨now, hh, rfl, Nat.le_refl _, timer.le_rings _ _, nofun⟩
  | wake =>
    refine h.goOn hl hs rfl rfl ?_
    rintro _ ⟨t, rfl, rfl, hlate, hle, hrung⟩
    intro n b
    refine .slept hlate ?_
    intro hrep
    rw [← timer.rings_eq _ _ hrep]
    exact Nat.le_antisymm hle (hrung rfl)

theorem Sound.backlog_of_loop {e : Endpoint C} {l : AcceptLoop C} (h : e.Sound)
    (hl : e.loop = some l) (hc : e.isClosed = false) : e.backlog = some l.backlog := by
  rw [h.backlog, h.listening_of_loop hl hc, hl]
  rfl

theorem beats_of_aside {e f : Endpoint C} {os : List (Occurrence C)} {m : Move C}
    (hm : m.aside = true) : e.beats f os m = [] := by
  cases m <;> first | rfl | cases hm

theorem beats_of_receives {e f : Endpoint C} {os : List (Occurrence C)} {m : Move C}
    (hm : m.receives = true) : e.beats f os m = [] := by
  cases m <;> first | rfl | cases hm

theorem beats_of_ne_ok {e f : Endpoint C} {os : List (Occurrence C)} {inRuntime : Bool}
    {requested : Size} {answer : Except Failure String}
    (h : (e.listen inRuntime requested answer).2.1 ≠ .ok .ok) :
    e.beats f os (.listen inRuntime requested answer) = [] := by
  rw [Endpoint.beats]
  split
  · next hr => exact absurd hr h
  · rfl

theorem beats_of_ok {e f : Endpoint C} {os : List (Occurrence C)} {inRuntime : Bool}
    {requested : Size} {answer : Except Failure String}
    (h : (e.listen inRuntime requested answer).2.1 = .ok .ok) :
    e.beats f os (.listen inRuntime requested answer) = [.opened] := by rw [Endpoint.beats, h]

end Endpoint

namespace Clocked

variable {C : Type} [Located C] {timer : Timer} {c : Clocked C} {beats : List (Nat × Beat)}

open Endpoint (Change)

/-- A move that comes in its time, while the endpoint is open. -/
theorem paced_move {m : Move C} (hs : c.scene.endpoint.Sound)
    (ho : (c.scene.next m).endpoint.isClosed = false) (hm : c.admits m = true)
    (h : c.scene.endpoint.Paced timer c.now c.alarm beats) :
    (c.scene.next m).endpoint.Paced timer c.now (c.alarmAfter timer m)
      (beats ++ (c.scene.beats m).map (c.now, ·)) := by
  have hc := c.scene.change_step m
  rw [Scene.beats]
  generalize (c.scene.next m).endpoint = f, (c.scene.step m).2 = os at hc ho
  have hkeep (hl : f.loop = c.scene.endpoint.loop) (hb : c.scene.endpoint.beats f os m = [])
      (ha : c.alarmAfter timer m = c.alarm) :
      f.Paced timer c.now (c.alarmAfter timer m)
        (beats ++ (c.scene.endpoint.beats f os m).map (c.now, ·)) := by
    rw [hb, List.map_nil, List.append_nil, ha]
    exact h.keep hl
  cases hc with
  | aside hm hb =>
    refine hkeep hb.loop (Endpoint.beats_of_aside hm) ?_
    cases m <;> first | rfl | cases hm
  | receiving hm =>
    refine hkeep rfl (Endpoint.beats_of_receives hm) ?_
    cases m <;> first | rfl | cases hm
  | refusal hr => exact hkeep rfl (Endpoint.beats_of_ne_ok hr) rfl
  | opening hr hc hl =>
    have hnone : c.scene.endpoint.loop = none := by simpa [hl] using hs.loop hc
    rw [h.fresh hnone, Endpoint.beats_of_ok hr]
    refine ⟨List.isChain_singleton _, nofun, fun l hl => ⟨_, rfl, ?_⟩⟩
    cases hl
    exact fun _ _ => .opened
  | closing => cases ho
  | piece hl hst hp =>
    have hc : c.scene.endpoint.isClosed = false := hp.isClosed_eq.symm.trans ho
    have hp := h.piece (hs.backlog_of_loop hl hc) hl hst hc hp
    simpa [alarmAfter, hl, hst] using hp
  | noLoop hl =>
    exact hkeep rfl (by simp [Endpoint.beats, Endpoint.stir?, hl]) (by simp [alarmAfter, hl])
  | answered hl hst => exact h.goOn hl hst rfl rfl fun _ hh => hh
  | rung hl hst =>
    refine h.goOn hl hst rfl rfl ?_
    rintro _ ⟨t, rfl, halarm, hle, hlate, -⟩
    exact ⟨t, rfl, halarm, hle, hlate, fun _ => of_decide_eq_true hm⟩
  | _ => exact hkeep rfl rfl rfl

omit [Located C] in
/-- Time passes where nothing but waiting can be done. -/
theorem paced_pass {span : Nat} (hp : c.lets span = true) (ho : c.scene.endpoint.isClosed = false)
    (h : c.scene.endpoint.Paced timer c.now c.alarm beats) :
    c.scene.endpoint.Paced timer (c.now + span) c.alarm beats := by
  obtain ⟨hwaits, hnap⟩ : c.scene.endpoint.waits = true ∧
      (c.scene.endpoint.napDelay?.isNone = true ∨ c.now + span ≤ c.alarm) := by
    simpa [lets] using hp
  refine ⟨h.chain, h.fresh, ?_⟩
  intro l hl
  obtain ⟨last, hlast, hheads⟩ := h.heads l hl
  refine ⟨last, hlast, ?_⟩
  obtain ⟨b, s⟩ := l
  rw [Endpoint.waits, Endpoint.awaitsAccept, Endpoint.waitsForRoom, Endpoint.napDelay?,
    Endpoint.loopEnded, hl] at hwaits
  rw [Endpoint.napDelay?, hl] at hnap
  cases s with
  | accepting => exact fun code => (hheads code).later_settled (Nat.le_add_right ..)
  | offering event retries => exact ⟨hheads.1, hheads.2.later_sent (Nat.le_add_right ..)⟩
  | stopped =>
    obtain ⟨code, hh⟩ := hheads
    exact ⟨code, hh.later_sent (Nat.le_add_right ..)⟩
  | napping delay rung =>
    obtain ⟨t, rfl, halarm, hle, hlate, hrung⟩ := hheads
    cases rung with
    | true => cases hwaits
    | false =>
      have hspan : c.now + span ≤ c.alarm := by simpa [ho] using hnap
      have hnot : false = true → c.alarm ≤ c.now + span := by intro hr; cases hr
      exact ⟨t, rfl, halarm, Nat.le_add_right_of_le hle, hspan, hnot⟩
  | _ => cases hwaits

/-! ### Runs -/

theorem isClosed_next (k : Tick C) (hc : c.scene.endpoint.isClosed = true) :
    (c.next timer k).scene.endpoint.isClosed = true := by
  cases k with
  | move m =>
    rw [next, step]
    split
    · exact (c.scene.change_step m).isClosed hc
    · exact hc
  | pass span =>
    rw [next, step]
    split <;> exact hc

/-- As long as the endpoint is open its beats follow each other. -/
theorem paced_next (k : Tick C) (hs : c.scene.endpoint.Sound)
    (ho : (c.next timer k).scene.endpoint.isClosed = false)
    (h : c.scene.endpoint.Paced timer c.now c.alarm beats) :
    (c.next timer k).scene.endpoint.Paced timer (c.next timer k).now (c.next timer k).alarm
      (beats ++ (c.step timer k).2) := by
  cases k with
  | move m =>
    rw [next, step] at ho ⊢
    split
    · next hm =>
      rw [if_pos hm] at ho
      exact paced_move hs ho hm h
    · rwa [List.append_nil]
  | pass span =>
    rw [next, step] at ho ⊢
    split
    · next hp =>
      rw [if_pos hp] at ho
      rw [List.append_nil]
      exact paced_pass hp ho h
    · rwa [List.append_nil]

theorem sound_after (timer : Timer) (role : Role) (ipc : Bool) (config : Config)
    (ks : List (Tick C)) : ((start role ipc config).after timer ks).scene.endpoint.Sound := by
  rw [scene_after]
  exact Scene.sound_after role ipc config _

/-- After every run of a fresh endpoint that leaves it open, the beats follow each other. -/
theorem paced_after (timer : Timer) (role : Role) (ipc : Bool) (config : Config)
    (ks : List (Tick C)) :
    let c := (start role ipc config).after timer ks
    c.scene.endpoint.isClosed = false → c.scene.endpoint.Paced timer c.now c.alarm
      ((start role ipc config).beats timer ks) := by
  intro c ho
  induction ks using List.reverseRecOn with
  | nil => exact ⟨.nil, fun _ => rfl, nofun⟩
  | append_singleton ks k ih =>
    have hs : ((start role ipc config).after timer ks).scene.endpoint.Sound :=
      sound_after timer role ipc config ks
    simp only [c, Runs.concat (after (C := C) timer), beats_concat] at ho ⊢
    refine paced_next k hs ho (ih ?_)
    cases hc : ((start role ipc config).after timer ks).scene.endpoint.isClosed with
    | false => rfl
    | true => rw [isClosed_next k hc] at ho; cases ho

/-! ### The loop goes on -/

/-- The endpoint is open, and its loop stands here. -/
structure At (c : Clocked C) (s : Station C) : Prop where
  isOpen : c.scene.endpoint.isClosed = false
  loop : ∃ b, c.scene.endpoint.loop = some ⟨b, s⟩

/-- There can be one more beat without that the endpoint closes. -/
def GoesOn (timer : Timer) (c : Clocked C) : Prop :=
  ∃ ks x, (c.after timer ks).scene.endpoint.isClosed = false ∧ c.beats timer ks = [x]

theorem step_work : c.step timer (.move .work) =
    (⟨c.scene.next .work, c.now, c.alarmAfter timer .work⟩,
      (c.scene.beats .work).map (c.now, ·)) := rfl

/-- The beat of a piece of work is that of the station. -/
theorem At.beats_work {s : Station C} (h : c.At s) :
    c.scene.beats .work = (c.scene.endpoint.beatAt? s).toList ∧
      (c.scene.next .work).endpoint.isClosed = false := by
  obtain ⟨ho, b, hl⟩ := h
  have hp := Endpoint.piece_advance hl
  exact ⟨hp.beats_eq hl rfl, hp.isClosed_eq.trans ho⟩

theorem GoesOn.of_silent {k : Tick C} (hk : (c.step timer k).2 = [])
    (h : GoesOn timer (c.next timer k)) : GoesOn timer c := by
  obtain ⟨ks, x, ho, hx⟩ := h
  exact ⟨k :: ks, x, ho, by rw [Clocked.beats, gather, hk]; exact hx⟩

/-- The next piece of work has a beat. -/
theorem GoesOn.of_beat {s : Station C} {beat : Beat} (h : c.At s)
    (hb : c.scene.endpoint.beatAt? s = some beat) : GoesOn timer c := by
  obtain ⟨hnew, ho⟩ := h.beats_work
  rw [hb] at hnew
  refine ⟨[.move .work], (c.now, beat), ho, ?_⟩
  rw [Clocked.beats, gather, gather, step_work, hnew]
  rfl

/-- The next piece of work has none, but leads to a station that goes on. -/
theorem GoesOn.of_piece {s s' : Station C} (h : c.At s)
    (hb : c.scene.endpoint.beatAt? s = none)
    (hs' : ∀ b, c.scene.endpoint.loop = some ⟨b, s⟩ →
      c.scene.endpoint.advance.1.loop = some ⟨b, s'⟩)
    (hnext : (c.next timer (.move .work)).At s' → GoesOn timer (c.next timer (.move .work))) :
    GoesOn timer c := by
  obtain ⟨hnew, ho⟩ := h.beats_work
  obtain ⟨b, hl⟩ := h.loop
  rw [hb] at hnew
  exact .of_silent (by rw [step_work, hnew]; rfl) (hnext ⟨ho, b, hs' b hl⟩)

theorem goesOn_cycling (h : c.At .cycling) : GoesOn timer c :=
  .of_beat h (by rw [Endpoint.beatAt?, h.isOpen]; rfl)

theorem goesOn_waking (h : c.At .waking) : GoesOn timer c :=
  .of_piece h rfl (fun b hl => by simp [Endpoint.advance, hl, h.isOpen, Endpoint.moveTo])
    goesOn_cycling

/-- A delay that is over has been waited out. -/
theorem goesOn_rung {delay : Span} (h : c.At (.napping delay true)) : GoesOn timer c := by
  refine .of_piece h rfl
    (fun b hl => by simp [Endpoint.advance, hl, h.isOpen, Endpoint.moveTo]; rfl) fun h => ?_
  exact .of_piece h rfl (fun b hl => by simp [Endpoint.advance, hl, Endpoint.moveTo]) goesOn_waking

/-- A delay that is not over is waited out until the timer rings. -/
theorem goesOn_napping {delay : Span} {rung : Bool} (h : c.At (.napping delay rung))
    (hle : c.now ≤ c.alarm) : GoesOn timer c := by
  cases rung with
  | true => exact goesOn_rung h
  | false =>
    obtain ⟨ho, b, hl⟩ := h
    have hnap : c.scene.endpoint.napDelay? = some delay := by simp [Endpoint.napDelay?, hl, ho]
    have hlets : c.lets (c.alarm - c.now) = true := by
      simp [lets, Endpoint.waits, hnap]
      omega
    have hpass : c.step timer (.pass (c.alarm - c.now)) = ({ c with now := c.alarm }, []) := by
      rw [step, if_pos hlets, Nat.add_sub_cancel' hle]
    have hring : ({ c with now := c.alarm } : Clocked C).step timer (.move .delayEnds) =
        (⟨c.scene.next .delayEnds, c.alarm, c.alarm⟩, []) := by
      rw [step, if_pos (by simp [admits])]
      rfl
    refine .of_silent (k := .pass (c.alarm - c.now)) (by rw [hpass]) ?_
    rw [next, hpass]
    refine .of_silent (k := .move .delayEnds) (by rw [hring]) ?_
    rw [next, hring]
    have hrung : (c.scene.next .delayEnds).endpoint =
        { c.scene.endpoint with loop := some ⟨b, .napping delay true⟩ } := by
      simp [Scene.next, Scene.step, Scene.put, Endpoint.ring, hl]
    have hat : At ⟨c.scene.next .delayEnds, c.alarm, c.alarm⟩ (.napping delay true) :=
      ⟨by rw [hrung]; exact ho, b, by rw [hrung]⟩
    exact goesOn_rung hat

theorem goesOn_timing {delay : Span} {rung : Bool} (h : c.At (.timing delay rung))
    (hle : c.now ≤ c.alarm) : GoesOn timer c := by
  cases rung with
  | true =>
    exact .of_piece h rfl (fun b hl => by simp [Endpoint.advance, hl, Endpoint.moveTo])
      goesOn_waking
  | false =>
    refine .of_piece h rfl
      (fun b hl => by simp [Endpoint.advance, hl, Endpoint.moveTo]; rfl) fun hnap => ?_
    obtain ⟨b, hl⟩ := h.loop
    refine goesOn_napping hnap ?_
    simpa [next, step_work, alarmAfter, hl, Station.alarm] using hle

theorem goesOn_counting {delay : Span} (h : c.At (.counting delay)) : GoesOn timer c := by
  refine .of_piece h rfl
    (fun b hl => by simp [Endpoint.advance, hl, Endpoint.moveTo]; rfl) fun hnap => ?_
  obtain ⟨b, hl⟩ := h.loop
  refine goesOn_napping hnap ?_
  simpa [next, step_work, alarmAfter, hl, Station.alarm] using timer.le_rings c.now delay

/-- Unless another beat lies with the provider or the consumer, the loop of an open endpoint comes
    to one. -/
theorem goesOn (ho : c.scene.endpoint.isClosed = false)
    (h : c.scene.endpoint.Paced timer c.now c.alarm beats) {t : Nat} {beat : Beat}
    (hlast : beats.getLast? = some (t, beat)) (hb : beat.pends = false) : GoesOn timer c := by
  cases hl : c.scene.endpoint.loop with
  | none => rw [h.fresh hl] at hlast; cases hlast
  | some l =>
    obtain ⟨last, hlast', hheads⟩ := h.heads l hl
    obtain rfl : last = (t, beat) := Option.some.inj (hlast'.symm.trans hlast)
    obtain ⟨b, s⟩ := l
    have hat : c.At s := ⟨ho, b, hl⟩
    have hsent {code : Code} (hf : Follows timer (t, beat) (c.now, .sent code)) :
        GoesOn timer c := by
      cases hf
      cases hb
    cases s with
    | starting =>
      exact .of_piece hat rfl (fun b hl => by simp [Endpoint.advance, hl, Endpoint.moveTo])
        goesOn_cycling
    | cycling => exact goesOn_cycling hat
    | calling => exact .of_beat hat rfl
    | accepting | settling =>
      cases hheads .ok
      cases hb
    | offering | reserving | admitting => exact hsent hheads.2
    | receding => exact .of_beat hat (by rw [Endpoint.beatAt?, ho]; rfl)
    | counting delay => exact goesOn_counting hat
    | napping delay rung =>
      obtain ⟨_, _, _, _, hle, _⟩ := hheads
      exact goesOn_napping hat hle
    | timing delay rung =>
      obtain ⟨_, _, _, _, hle, _⟩ := hheads
      exact goesOn_timing hat hle
    | waking => exact goesOn_waking hat
    | stopping | stopped =>
      obtain ⟨_, hf⟩ := hheads
      exact hsent hf

end Clocked

end LocalEndpoint
