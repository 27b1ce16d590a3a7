import LocalEndpoint.Proofs.Grant
import LocalEndpoint.Proofs.Lull

/-! How much can go on within one instant while nobody asks for anything. The tasks of an endpoint
    move of their own accord as long as they find something to do, and the provider as long as an
    accept is pending (`stirs`). What is still to be done is a number (`unrest`): the loop's
    distance from waiting, with one more stretch where the end of its delay is due, the events in
    the channel, the connects under way, and the receiving end that a reader may let go of. Every
    move of a task uses some of it up, and only an answer of the provider adds to it, so there are
    finitely many moves to an answer. A delay that begins is not due in the same instant, which is
    what keeps the loop from going round. -/

namespace LocalEndpoint

/-- Whether a look that gives this is more for a reader than a look: it has found an event, or it
    ends. -/
def Receipt.moves {α : Type} (reader : Reader) : Receipt α → Bool
  | .item _ => true
  | .pending => false
  | .ended => reader ≠ .direct

/-- Whether the loop waits here for the end of a delay. -/
def Station.dozes {C : Type} : Station C → Bool
  | .napping _ rung | .timing _ rung => !rung
  | _ => false

/-- Whether a move is an answer of the provider to an accept. -/
def Move.isAnswer {C : Type} : Move C → Bool
  | .acceptEnds _ => true
  | _ => false

theorem Station.rank_le {C : Type} (free : Bool) (s : Station C) : s.rank free ≤ 30 := by
  cases s with
  | reserving => cases free <;> simp [rank]
  | napping _ rung | timing _ rung => cases rung <;> simp [rank]
  | _ => simp [rank]

theorem Station.rank_of_free {C : Type} {free free' : Bool} (h : free = true → free' = true)
    (s : Station C) : s.rank free' ≤ s.rank free := by
  cases s with
  | reserving =>
    cases free with
    | true => simp [rank, h rfl]
    | false => cases free' <;> simp [rank]
  | napping _ rung | timing _ rung => cases rung <;> exact Nat.le_refl _
  | _ => exact Nat.le_refl _

namespace Endpoint

variable {C : Type} {e f : Endpoint C}

theorem rank_le (e : Endpoint C) : e.rank ≤ 30 := by
  cases hl : e.loop with
  | none => simp [rank, hl]
  | some l => rw [rank_of_loop hl]; exact l.station.rank_le _

/-- Room in the channel brings the loop no further from waiting. -/
theorem rank_of_channelFree (hl : f.loop = e.loop)
    (h : e.channelFree = true → f.channelFree = true) : f.rank ≤ e.rank := by
  rw [rank, rank, hl]
  cases e.loop with
  | none => exact Nat.le_refl _
  | some l => exact l.station.rank_of_free h

/-- What the loop can still do once its delay has ended, if the end is due. -/
def doze (due : Bool) (e : Endpoint C) : Nat :=
  if due && e.loop.any (·.station.dozes) then 16 else 0

/-- How much there is still to do for the tasks of an endpoint. -/
def unrest (due : Bool) (e : Endpoint C) : Nat :=
  e.rank + e.doze due + e.buffered + e.receiverTaken.toNat

theorem doze_of_loop {due : Bool} {l : AcceptLoop C} (hl : e.loop = some l)
    (hs : l.station.dozes = false) : e.doze due = 0 := by
  simp [doze, hl, hs]

theorem doze_mono {due due' : Bool} (hl : f.loop = e.loop) (h : due' = true → due = true) :
    f.doze due' ≤ e.doze due := by
  rw [doze, doze, hl]
  cases due' with
  | true => rw [h rfl]
  | false => simp

theorem buffered_send_le (e : Endpoint C) (event : Event C) :
    (e.onChannel (·.send event)).buffered ≤ e.buffered + 1 := by
  cases hch : e.channel with
  | none => simp [buffered, onChannel, hch]
  | some ch => simp [buffered, onChannel, hch, Channel.send, Fifo.push]

theorem receiverTaken_onChannel (e : Endpoint C) {g : Channel (Event C) → Channel (Event C)}
    (hg : ∀ ch, (g ch).custody = ch.custody) :
    (e.onChannel g).receiverTaken = e.receiverTaken := by
  cases hch : e.channel <;> simp [receiverTaken, onChannel, hch, hg]

/-! ### The accept loop -/

/-- A loop that has work to do gets nearer to waiting, unless its delay is over at once. -/
theorem Piece.unrest_lt [Located C] {l : AcceptLoop C} {s : Station C} {os : List (Occurrence C)}
    (hp : Piece e l s f os) (hl : e.loop = some l) (hs : l.station = s) (hw : e.waits = false)
    {due due' : Bool} (hdue : due' = true → due = true ∧ ∀ delay, s ≠ .counting delay) :
    f.unrest due' < e.unrest due := by
  have hrank : f.rank < e.rank := by
    have h := e.rank_advance hw
    rwa [hp.advance_eq hl hs] at h
  have hkeep (hbuffered : f.buffered = e.buffered) (htaken : f.receiverTaken = e.receiverTaken)
      (hdoze : f.doze due' ≤ e.doze due) : f.unrest due' < e.unrest due := by
    rw [unrest, unrest, hbuffered, htaken]
    omega
  have hawake {f' : Endpoint C} {s' : Station C} (hs' : s'.dozes = false) :
      (f'.moveTo l s').doze due' ≤ e.doze due := by
    rw [doze_of_loop rfl hs']
    exact Nat.zero_le _
  -- The loop has waited for the end of the delay before, and still does.
  have hasleep {s' : Station C} (hss : s'.dozes = s.dozes) (hne : ∀ delay, s ≠ .counting delay) :
      (e.moveTo l s').doze due' ≤ e.doze due := by
    have hsame : (e.moveTo l s').loop.any (·.station.dozes) = e.loop.any (·.station.dozes) := by
      rw [hl, ← hs] at *
      exact hss
    rw [doze, doze, hsame]
    cases due' with
    | true => rw [(hdue rfl).1]
    | false => simp
  cases hp with
  | await | rest => omega
  | @enter event retries | @send event retries =>
    -- There is an event more in the channel, but the loop is two pieces of work nearer.
    have hnear : (Station.afterSending retries : Station C).rank
        (e.onChannel (·.send event)).channelFree + 2 ≤ e.rank := by
      rw [rank_of_loop hl, hs]
      cases retries <;> simp [Station.afterSending, Station.rank]
    have hmore := e.buffered_send_le event
    have htaken : (e.onChannel (·.send event)).receiverTaken = e.receiverTaken :=
      e.receiverTaken_onChannel fun _ => rfl
    have hdoze : ((e.onChannel (·.send event)).moveTo l (.afterSending retries)).doze due' = 0 :=
      doze_of_loop rfl (by cases retries <;> rfl)
    change _ + doze due' ((e.onChannel (·.send event)).moveTo l (.afterSending retries))
      + (e.onChannel (·.send event)).buffered
      + (e.onChannel (·.send event)).receiverTaken.toNat < _
    rw [htaken, hdoze, unrest]
    change (Station.afterSending retries : Station C).rank
      (e.onChannel (·.send event)).channelFree + _ + _ + _ < _
    omega
  | count =>
    have hlater : due' = false := by
      cases due' with
      | false => rfl
      | true => exact absurd rfl ((hdue rfl).2 _)
    refine hkeep rfl rfl ?_
    simp [doze, hlater]
  | nap => exact hkeep rfl rfl (hasleep rfl (by simp))
  | sleepOn => exact hkeep rfl rfl (hasleep rfl (by simp))
  | stop =>
    exact hkeep e.buffered_hangUp (e.receiverTaken_onChannel fun _ => rfl) (hawake rfl)
  | _ => exact hkeep rfl rfl (hawake rfl)

/-! ### The others -/

/-- The end of a delay that is due uses up what it promised. -/
theorem unrest_ring_lt {due' : Bool} (h : e.napDelay?.isSome = true) :
    e.ring.unrest due' < e.unrest true := by
  rw [napDelay?] at h
  split at h
  · next b delay hl =>
    have hring : e.ring = { e with loop := some ⟨b, .napping delay true⟩ } := by simp [ring, hl]
    have hrung : ({ e with loop := some ⟨b, .napping delay true⟩ } : Endpoint C).doze due' = 0 :=
      doze_of_loop rfl rfl
    have hdoze : e.doze true = 16 := by simp [doze, hl, Station.dozes]
    have hrank : e.rank = 3 := rank_of_loop hl
    rw [hring, unrest, hrung, unrest, hdoze, hrank]
    change 18 + 0 + e.buffered + e.receiverTaken.toNat < _
    omega
  · cases h

/-- An answer gives the loop work, but no more than a start would. -/
theorem unrest_resolve_le {due due' : Bool} (h : e.awaitsAccept = true)
    (outcome : Except Failure C) : (e.resolve outcome).unrest due' ≤ e.unrest due + 30 := by
  rw [awaitsAccept] at h
  split at h
  · next b hl =>
    have hresolve : e.resolve outcome = { e with loop := some ⟨b, .settling outcome⟩ } := by
      simp [resolve, hl]
    have hdoze : (e.resolve outcome).doze due' = 0 := by rw [hresolve]; exact doze_of_loop rfl rfl
    have hrank := (e.resolve outcome).rank_le
    have hbuffered : (e.resolve outcome).buffered = e.buffered := by rw [hresolve]; rfl
    have htaken : (e.resolve outcome).receiverTaken = e.receiverTaken := by rw [hresolve]; rfl
    rw [unrest, unrest, hdoze, hbuffered, htaken]
    omega
  · cases h

/-- What goes on beside the loop does not add to its work. -/
theorem Beside.unrest_le {due due' : Bool} (hb : e.Beside f)
    (hdue : due' = true → due = true) : f.unrest due' ≤ e.unrest due := by
  have hfree : f.channelFree = e.channelFree := by
    simp only [channelFree, hasRoom, receiverGone, hb.channel]
  have hrank : f.rank ≤ e.rank := rank_of_channelFree hb.loop fun h => hfree.trans h
  have hdoze : f.doze due' ≤ e.doze due := doze_mono hb.loop hdue
  have hbuffered : f.buffered = e.buffered := by rw [buffered, buffered, hb.channel]
  have htaken : f.receiverTaken = e.receiverTaken := by
    rw [receiverTaken, receiverTaken, hb.channel]
  rw [unrest, unrest, hbuffered, htaken]
  omega

/-- A look that finds something leaves less to find. -/
theorem unrest_poll_lt [Located C] (s : Scene C) {reader : Reader} {due due' : Bool}
    (hdue : due' = true → due = true) (ht : s.endpoint.receiverTaken = true)
    (hm : s.endpoint.receive.1.moves reader = true) :
    (s.poll reader).1.endpoint.unrest due' < s.endpoint.unrest due := by
  cases hr : s.endpoint.receive.1 with
  | pending => rw [hr] at hm; cases hm
  | item event =>
    obtain ⟨-, ch, ch', hch, hrec, he⟩ := Scene.receive_item (Prod.ext hr rfl)
    have hpoll : (s.poll reader).1.endpoint = { s.endpoint with channel := some ch' } := by
      rw [Scene.poll, if_pos ht, hr]
      cases reader <;> exact he
    obtain ⟨-, hcustody⟩ := Channel.toList_of_receive hrec
    have hcapacity : ch'.capacity = ch.capacity := by
      have h := ch.capacity_receive
      rwa [hrec] at h
    have hsize : ch.buffer.size = ch'.buffer.size + 1 := Channel.size_of_receive hrec
    have hrank : ({ s.endpoint with channel := some ch' } : Endpoint C).rank ≤ s.endpoint.rank := by
      refine rank_of_channelFree rfl ?_
      simp only [channelFree, hasRoom, receiverGone, hch, Channel.hasRoom, Channel.abandoned,
        hcapacity, hcustody, Bool.or_eq_true, decide_eq_true_eq]
      rintro (hroom | hgone)
      · exact .inl (by omega)
      · exact .inr hgone
    have hdoze := doze_mono (e := s.endpoint)
      (f := { s.endpoint with channel := some ch' }) rfl hdue
    have htaken : ({ s.endpoint with channel := some ch' } : Endpoint C).receiverTaken =
        s.endpoint.receiverTaken := by
      simp [receiverTaken, hch, hcustody]
    have hbuffered : s.endpoint.buffered = ch'.buffer.size + 1 := by rw [buffered, hch, ← hsize]
    rw [hpoll, unrest, unrest, htaken, hbuffered]
    change _ + _ + ch'.buffer.size + _ < _
    omega
  | ended =>
    have he : s.endpoint.receive.2 = s.endpoint := Scene.receive_eq_self (by simp [hr])
    have hpoll : (s.poll reader).1.endpoint = s.endpoint.dropReceiver := by
      rw [Scene.poll, if_pos ht, hr, he]
      cases reader with
      | direct => rw [hr] at hm; cases hm
      | _ => rfl
    rw [receiverTaken] at ht
    cases hch : s.endpoint.channel with
    | none => rw [hch] at ht; cases ht
    | some ch =>
      have hrank : s.endpoint.dropReceiver.rank ≤ s.endpoint.rank :=
        rank_of_channelFree rfl fun _ => by
          simp [channelFree, receiverGone, dropReceiver, onChannel, hch, Channel.abandon,
            Channel.abandoned]
      have hdoze := doze_mono (e := s.endpoint) (f := s.endpoint.dropReceiver) rfl hdue
      have hbuffered : s.endpoint.dropReceiver.buffered = 0 := by
        rw [buffered, dropReceiver, onChannel, hch]
        rfl
      have hdropped : s.endpoint.dropReceiver.receiverTaken = false := by
        rw [receiverTaken, dropReceiver, onChannel, hch]
        rfl
      rw [hpoll, unrest, unrest, hbuffered, hdropped, receiverTaken, ht]
      change _ + 0 + 0 < _ + 1
      omega

end Endpoint

namespace Clocked

variable {C : Type}

/-- Whether a move is made although nobody asks for it: the loop has work to do or its delay is
    over, a reader finds something, a connect is under way, or an accept is pending, which the
    provider may answer. -/
def stirs (c : Clocked C) : Move C → Bool
  | .work => !c.scene.endpoint.waits
  | .delayEnds => c.scene.endpoint.napDelay?.isSome && c.admits .delayEnds
  | .poll reader => c.scene.endpoint.receiverTaken && c.scene.endpoint.receive.1.moves reader
  | .connectEnds i _ _ => decide (i < c.scene.underWay.length)
  | .acceptEnds _ => c.scene.endpoint.awaitsAccept
  | _ => false

/-- Whether the end of a delay that the loop waits out is due. -/
def due (c : Clocked C) : Bool := !c.scene.endpoint.isClosed && decide (c.alarm ≤ c.now)

/-- How much there is still to do, of the endpoint's tasks and of connects. -/
def unrest (c : Clocked C) : Nat := c.scene.endpoint.unrest c.due + c.scene.underWay.length

theorem admits_of_stirs {c : Clocked C} {m : Move C} (h : c.stirs m = true) :
    c.admits m = true := by
  cases m with
  | delayEnds => exact (Bool.and_eq_true_iff.mp h).2
  | _ => rfl

variable [Located C] {timer : Timer} {c : Clocked C}

/-- The moves of a run within an instant are made although nobody asks for them. -/
def Stirring (timer : Timer) : Clocked C → List (Move C) → Prop
  | _, [] => True
  | c, m :: ms => c.stirs m = true ∧ Stirring timer (c.next timer (.move m)) ms

instance decidableStirring (timer : Timer) :
    (c : Clocked C) → (ms : List (Move C)) → Decidable (c.Stirring timer ms)
  | _, [] => .isTrue trivial
  | c, m :: ms =>
    have := decidableStirring timer (c.next timer (.move m)) ms
    inferInstanceAs (Decidable (c.stirs m = true ∧ Stirring timer (c.next timer (.move m)) ms))

theorem next_of_stirs {m : Move C} (h : c.stirs m = true) :
    c.next timer (.move m) = ⟨c.scene.next m, c.now, c.alarmAfter timer m⟩ := by
  rw [next, step, if_pos (admits_of_stirs h)]

omit [Located C] in
theorem underWay_poll (s : Scene C) (reader : Reader) :
    (s.poll reader).1.underWay = s.underWay := by
  rw [Scene.poll]
  split
  · split <;> rfl
  · rfl

/-- What a run of a fresh endpoint can lead to. -/
def Reached (timer : Timer) (c : Clocked C) : Prop :=
  ∃ role ipc config ks, c = (start role ipc config).after timer ks

theorem reached_after (timer : Timer) (role : Role) (ipc : Bool) (config : Config)
    (ks : List (Tick C)) : ((start role ipc config).after timer ks).Reached timer :=
  ⟨role, ipc, config, ks, rfl⟩

namespace Reached

theorem next (h : c.Reached timer) (k : Tick C) : (c.next timer k).Reached timer := by
  obtain ⟨role, ipc, config, ks, rfl⟩ := h
  rw [← Runs.concat (after timer)]
  exact reached_after timer role ipc config _

theorem sound (h : c.Reached timer) : c.scene.endpoint.Sound := by
  obtain ⟨role, ipc, config, ks, rfl⟩ := h
  exact sound_after timer role ipc config ks

/-- A delay that the loop of an open endpoint is about to begin is not over in the same instant. -/
theorem alarm_of_counting (h : c.Reached timer) (hpatient : timer.Patient)
    (ho : c.scene.endpoint.isClosed = false) {l : AcceptLoop C}
    (hl : c.scene.endpoint.loop = some l) {delay : Span} (hs : l.station = .counting delay) :
    c.now + 1000000 ≤ c.alarmAfter timer .work := by
  have halarm : c.alarmAfter timer .work = timer.rings c.now delay := by
    rw [alarmAfter, hl, Option.map_some, Option.getD_some, hs, Station.alarm]
  obtain ⟨role, ipc, config, ks, hc⟩ := h
  have hpaced := paced_after timer role ipc config ks
  rw [← hc] at hpaced
  obtain ⟨last, hlast, hheads⟩ := (hpaced ho).heads l hl
  rw [hs] at hheads
  obtain rfl : last = (c.now, .sleep delay) := hheads
  have hlong : 1000000 ≤ delay.nanos := (lawful_after timer role ipc config ks).long hlast
  rw [halarm]
  exact hpatient.le_rings c.now hlong

/-- What is due after a move was due before it, and no delay has begun. -/
theorem due_of_due_next (h : c.Reached timer) (hpatient : timer.Patient) {m : Move C}
    (hdue : due ⟨c.scene.next m, c.now, c.alarmAfter timer m⟩ = true) :
    c.due = true ∧ (m = .work → ∀ l ∈ c.scene.endpoint.loop, ∀ delay,
      l.station ≠ .counting delay) := by
  obtain ⟨hopen, halarm⟩ : (c.scene.next m).endpoint.isClosed = false ∧
      c.alarmAfter timer m ≤ c.now := by
    simpa [due] using hdue
  have ho : c.scene.endpoint.isClosed = false := by
    cases hc : c.scene.endpoint.isClosed with
    | false => rfl
    | true => rw [(c.scene.change_step m).isClosed hc] at hopen; cases hopen
  have hcount (hm : m = .work) (l : AcceptLoop C) (hl : c.scene.endpoint.loop = some l)
      (delay : Span) : l.station ≠ .counting delay := by
    intro hs
    have hlater := h.alarm_of_counting hpatient ho hl hs
    subst hm
    omega
  have hsame : c.alarmAfter timer m = c.alarm := by
    cases m with
    | work =>
      cases hl : c.scene.endpoint.loop with
      | none => simp [alarmAfter, hl]
      | some l =>
        have hne := hcount rfl l hl
        rw [alarmAfter, hl, Option.map_some, Option.getD_some, Station.alarm]
        intro delay hs
        exact hne delay hs
    | _ => rfl
  refine ⟨?_, hcount⟩
  simp only [due, ho, Bool.not_false, Bool.true_and, decide_eq_true_eq]
  omega

/-- A task that moves has less to do afterwards; an answer may give the loop work again. -/
theorem unrest_next_lt (h : c.Reached timer) (hpatient : timer.Patient) {m : Move C}
    (hm : c.stirs m = true) :
    (c.next timer (.move m)).unrest < c.unrest + if m.isAnswer then 31 else 0 := by
  rw [next_of_stirs hm]
  have hdue := h.due_of_due_next hpatient (m := m)
  rw [unrest]
  generalize due ⟨c.scene.next m, c.now, c.alarmAfter timer m⟩ = due' at hdue
  change (c.scene.next m).endpoint.unrest due' + (c.scene.next m).underWay.length <
    c.scene.endpoint.unrest c.due + c.scene.underWay.length + _
  cases m with
  | work =>
    have hw : c.scene.endpoint.waits = false := by simpa [stirs] using hm
    cases hl : c.scene.endpoint.loop with
    | none => simp [Endpoint.waits, hl] at hw
    | some l =>
      have hlt : c.scene.endpoint.advance.1.unrest due' < c.scene.endpoint.unrest c.due := by
        refine (Endpoint.piece_advance hl).unrest_lt hl rfl hw ?_
        intro hd
        exact ⟨(hdue hd).1, (hdue hd).2 rfl l hl⟩
      exact Nat.add_lt_add_right hlt _
  | delayEnds =>
    obtain ⟨hnap, hrung⟩ := Bool.and_eq_true_iff.mp hm
    have hnow : c.due = true := by
      have ho : c.scene.endpoint.isClosed = false := by
        cases hc : c.scene.endpoint.isClosed with
        | false => rfl
        | true =>
          rw [Endpoint.napDelay?] at hnap
          split at hnap <;> simp [hc] at hnap
      simpa [due, ho, admits] using hrung
    have hlt : c.scene.endpoint.ring.unrest due' < c.scene.endpoint.unrest c.due := by
      rw [hnow]
      exact Endpoint.unrest_ring_lt hnap
    exact Nat.add_lt_add_right hlt _
  | poll reader =>
    obtain ⟨ht, hmoves⟩ := Bool.and_eq_true_iff.mp hm
    have hlt : (c.scene.poll reader).1.endpoint.unrest due' < c.scene.endpoint.unrest c.due :=
      Endpoint.unrest_poll_lt c.scene (fun hd => (hdue hd).1) ht hmoves
    have hunder : (c.scene.next (.poll reader)).underWay = c.scene.underWay :=
      underWay_poll c.scene reader
    rw [hunder]
    exact Nat.add_lt_add_right hlt _
  | connectEnds i outcome panics =>
    have hi : i < c.scene.underWay.length := by simpa [stirs] using hm
    have hb : c.scene.endpoint.Beside (c.scene.next (.connectEnds i outcome panics)).endpoint :=
      (c.scene.beside_next rfl).1
    have hle : (c.scene.next (.connectEnds i outcome panics)).endpoint.unrest due' ≤
        c.scene.endpoint.unrest c.due := hb.unrest_le fun hd => (hdue hd).1
    have hless : (c.scene.next (.connectEnds i outcome panics)).underWay.length <
        c.scene.underWay.length := by
      rw [Scene.next, Scene.step, Scene.connectEnds, List.getElem?_eq_getElem hi]
      change (c.scene.underWay.eraseIdx i).length < _
      rw [List.length_eraseIdx_of_lt hi]
      omega
    have hlt := Nat.add_lt_add_of_le_of_lt hle hless
    exact hlt
  | acceptEnds outcome =>
    have hle : (c.scene.endpoint.resolve outcome).unrest due' ≤
        c.scene.endpoint.unrest c.due + 30 := Endpoint.unrest_resolve_le hm outcome
    change (c.scene.endpoint.resolve outcome).unrest due' + c.scene.underWay.length <
      c.scene.endpoint.unrest c.due + c.scene.underWay.length + 31
    omega
  | _ => cases hm

/-- As long as nobody asks for anything, there are finitely many moves to an answer. -/
theorem length_le (h : c.Reached timer) (hpatient : timer.Patient) {ms : List (Move C)}
    (hms : c.Stirring timer ms) : ms.length ≤ c.unrest + 31 * ms.countP Move.isAnswer := by
  induction ms generalizing c with
  | nil => exact Nat.zero_le _
  | cons m ms ih =>
    obtain ⟨hm, hms⟩ := hms
    have hlt := h.unrest_next_lt hpatient hm
    have hlen := ih (h.next (.move m)) hms
    rw [List.length_cons, List.countP_cons]
    cases hans : m.isAnswer with
    | true =>
      rw [hans, if_pos rfl] at hlt
      rw [if_pos rfl]
      omega
    | false =>
      rw [hans] at hlt
      simp only [Bool.false_eq_true, if_false] at hlt ⊢
      omega

end Reached

end Clocked

end LocalEndpoint
