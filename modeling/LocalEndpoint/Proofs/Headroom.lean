import LocalEndpoint.Proofs.Conservation
import LocalEndpoint.Proofs.Unrest

/-! How many accepts can begin within one instant. A loop comes back to its next cycle in the same
    instant only by an accept that succeeds, and that takes one place of the backlog. Where the loop
    stands tells how many accepts it can still begin before it must wait (`Station.credit`): as many
    as there are places, one less while it has an accept in hand, and none once it is on its way to
    a delay. Unless a connection is released no move adds to that. -/

namespace LocalEndpoint

/-- How many accepts a loop that stands here can begin before a delay, with this many places left;
    `due` tells whether the delay that it waits out is over. -/
def Station.credit {C : Type} (room : Nat) (due : Bool) : Station C → Nat
  | .starting | .cycling | .calling | .waking => room
  | .accepting | .settling _ => room - 1
  | .offering _ retries | .reserving _ retries | .admitting _ retries =>
    if retries then 0 else room - 1
  | .napping _ rung | .timing _ rung => if rung || due then room else 0
  | .receding | .counting _ | .stopping | .stopped => 0

theorem Station.credit_mono {C : Type} {room : Nat} {due due' : Bool}
    (h : due' = true → due = true) (s : Station C) : s.credit room due' ≤ s.credit room due := by
  cases s with
  | napping _ rung | timing _ rung =>
    cases due' with
    | true => rw [h rfl]
    | false => cases rung <;> simp [credit]
  | _ => exact Nat.le_refl _

theorem Station.credit_le {C : Type} (room : Nat) (due : Bool) (s : Station C) :
    s.credit room due ≤ room := by
  cases s with
  | napping _ rung | timing _ rung => simp only [credit]; split <;> omega
  | offering _ retries | reserving _ retries | admitting _ retries =>
    simp only [credit]; split <;> omega
  | _ => simp [credit]

/-- An accept that a close does not prevent any more is one that there is a place for. -/
theorem Station.left_call_le_credit {C : Type} {room : Nat} (due : Bool) {s : Station C}
    (h : s.slack = 0 → 1 ≤ room) : s.left .call ≤ s.credit room due := by
  cases s with
  | calling => exact h rfl
  | _ => exact Nat.zero_le _

namespace Endpoint

variable {C : Type} {e f : Endpoint C} {due due' : Bool}

/-- How many accepts an endpoint's loop can begin before it must wait. -/
def credit (due : Bool) (e : Endpoint C) : Nat :=
  if e.isClosed then e.left .call
  else e.loop.elim 0 fun l => l.station.credit (l.backlog.toNat + 1 - e.count.toNat) due

theorem credit_of_loop {l : AcceptLoop C} (hl : e.loop = some l) (ho : e.isClosed = false) :
    e.credit due = l.station.credit (l.backlog.toNat + 1 - e.count.toNat) due := by
  rw [credit, ho, hl]
  rfl

/-- An accept that is pending has its place as well. -/
theorem credit_add_pending_le (due : Bool) {l : AcceptLoop C} (hl : e.loop = some l) :
    e.credit due + e.pending ≤ l.backlog.toNat + 1 := by
  rw [pending_of_loop hl]
  cases hc : e.isClosed with
  | true =>
    rw [credit, hc, if_pos rfl, left_of_loop hl]
    cases l.station <;> simp
  | false =>
    rw [credit_of_loop hl hc]
    have hle := l.station.credit_le (l.backlog.toNat + 1 - e.count.toNat) due
    cases hs : l.station with
    | accepting =>
      change l.backlog.toNat + 1 - e.count.toNat - 1 + 1 ≤ _
      omega
    | _ =>
      rw [hs] at hle
      exact Nat.le_trans hle (Nat.sub_le ..)

/-- What leaves loop and count alone adds nothing. -/
theorem credit_mono (hl : f.loop = e.loop) (hn : f.count = e.count)
    (hc : f.isClosed = e.isClosed) (h : due' = true → due = true) :
    f.credit due' ≤ e.credit due := by
  rw [credit, credit, left, left, hc, hl, hn]
  split
  · exact Nat.le_refl _
  · cases e.loop with
    | none => exact Nat.le_refl _
    | some l => exact l.station.credit_mono h

variable [Located C] {os : List (Occurrence C)}

/-- The loop of an open endpoint pays for the accepts that it begins. -/
theorem Piece.credit_le {l : AcceptLoop C} {s : Station C} (hp : Piece e l s f os)
    (hl : e.loop = some l) (hs : l.station = s) (ho : e.isClosed = false)
    (hbound : e.count.toNat ≤ l.backlog.toNat + s.slack) (hm : s.Matched)
    (hb : l.backlog ≠ Size.top)
    (hdue : due' = true → due = true ∧ ∀ delay, s ≠ .counting delay) :
    os.countP Occurrence.isAcceptCall + f.credit due' ≤ e.credit due := by
  have hof : f.isClosed = false := hp.isClosed_eq.trans ho
  have hopen (hc : e.isClosed = true) : False := by rw [ho] at hc; cases hc
  rw [credit_of_loop hl ho, hs]
  -- The loop goes on, and nothing else changes that its credit depends on.
  have hgo {s' : Station C} {f' : Endpoint C} (hf : f = f'.moveTo l s') (hn : f'.count = e.count)
      (hcalls : os.countP Occurrence.isAcceptCall = 0)
      (hle : s'.credit (l.backlog.toNat + 1 - e.count.toNat) due' ≤
        s.credit (l.backlog.toNat + 1 - e.count.toNat) due) :
      os.countP Occurrence.isAcceptCall + f.credit due' ≤
        s.credit (l.backlog.toNat + 1 - e.count.toNat) due := by
    have hcount : f.count = e.count := by rw [hf]; exact hn
    rw [credit_of_loop (l := { l with station := s' }) (by rw [hf]; rfl) hof, hcalls, hcount,
      Nat.zero_add]
    exact hle
  have hasleep : due' = true → due = true := fun h => (hdue h).1
  cases hp with
  | leave _ hc | discard _ hc => exact (hopen hc).elim
  | await | rest =>
    rw [credit_of_loop hl ho, hs]
    simp [Station.credit]
  | begin | cycle | succeed | offer | reserve | block | wake | resume =>
    exact hgo rfl rfl rfl (Nat.le_refl _)
  | throttle | fail | forsake | recede | stop => exact hgo rfl rfl rfl (Nat.zero_le _)
  | call =>
    have hroom : e.count.toNat ≤ l.backlog.toNat := hbound
    rw [credit_of_loop (l := { l with station := .accepting }) rfl hof]
    change 1 + (l.backlog.toNat + 1 - e.count.toNat - 1) ≤ l.backlog.toNat + 1 - e.count.toNat
    omega
  | @enter event retries _ hh =>
    obtain ⟨-, hhandle⟩ : event.isOk = !retries ∧ event.handle.isSome = !retries := hm
    have hroom : e.count.toNat ≤ l.backlog.toNat := hbound
    have hretries : retries = false := by simpa [hh] using hhandle
    subst hretries
    rw [credit_of_loop (l := { l with station := .cycling }) rfl hof]
    change 0 + (l.backlog.toNat + 1 - (Size.up e.count).toNat) ≤
      l.backlog.toNat + 1 - e.count.toNat - 1
    have htop : l.backlog.toNat ≠ Size.top.toNat := fun h => hb (UInt64.toNat_inj.mp h)
    have hlt := l.backlog.toNat_lt
    rw [Size.toNat_top, UInt64.size] at htop
    rw [Size.toNat_up, UInt64.size]
    omega
  | @send event retries _ hh =>
    obtain ⟨-, hhandle⟩ : event.isOk = !retries ∧ event.handle.isSome = !retries := hm
    have hretries : retries = true := by simpa [hh] using hhandle
    subst hretries
    exact hgo rfl rfl rfl (Nat.zero_le _)
  | @count delay =>
    have hlater : due' = false := by
      cases due' with
      | false => rfl
      | true => exact absurd rfl ((hdue rfl).2 delay)
    refine hgo rfl rfl rfl ?_
    simp [Station.credit, hlater]
  | @nap delay rung => exact hgo rfl rfl rfl ((Station.timing delay rung).credit_mono hasleep)
  | @sleepOn delay => exact hgo rfl rfl rfl ((Station.napping delay false).credit_mono hasleep)

omit [Located C] in
theorem granted_of_loop (hs : e.Sound) (hl : e.loop.isSome = true) (m : Move C) :
    e.granted m = [] := by
  cases m with
  | listen inRuntime requested answer =>
    refine granted_of_ne_ok fun hok => ?_
    obtain ⟨hc, hn, -⟩ := listen_of_ok hok
    rw [hs.loop hc, hn] at hl
    cases hl
  | _ => rfl

omit [Located C] in
theorem countP_filter_byLoop (os : List (Occurrence C)) :
    (os.filter Occurrence.byLoop).countP Occurrence.isAcceptCall =
      os.countP Occurrence.isAcceptCall := by
  rw [List.countP_filter]
  congr 1
  funext o
  cases o <;> rfl

omit [Located C] in
theorem answers_resolve (h : e.awaitsAccept = true) (outcome : Except Failure C) :
    e.answers (e.resolve outcome) (.acceptEnds outcome) = [outcome] := by
  rw [awaitsAccept] at h
  split at h
  · next hl => simp [answers, awaitsAccept, resolve, hl]
  · cases h

/-- Only a `listen` brings a loop into being. -/
theorem Change.loop_eq_none {m : Move C} (h : Change e m f os) (hl : e.loop = none)
    (hg : e.granted m = []) : f.loop = none := by
  cases h with
  | aside _ hbeside => exact hbeside.loop.trans hl
  | opening hr => rw [granted_of_ok hr] at hg; cases hg
  | piece hsome | answered hsome | rung hsome => rw [hl] at hsome; cases hsome
  | _ => exact hl

/-- Unless a connection is released or a loop comes into being, every accept that begins is paid
    for. -/
theorem Change.credit_le {m : Move C} {backlogs : List Size} (h : Change e m f os) (hs : e.Sound)
    (hf : f.Sound) (ha : e.Admitted backlogs) (hm : e.Matched)
    (hb : ∀ l ∈ e.loop, l.backlog ≠ Size.top) (hrel : m ≠ .release) (hg : e.granted m = [])
    (hring : m = .delayEnds → e.isClosed = false → due = true)
    (hdue : due' = true → due = true ∧
      (m = .work → ∀ l ∈ e.loop, ∀ delay, l.station ≠ .counting delay)) :
    os.countP Occurrence.isAcceptCall + f.credit due' ≤ e.credit due := by
  have hasleep : due' = true → due = true := fun h => (hdue h).1
  cases hc : e.isClosed with
  | true =>
    have hleak := (h.winding hs hf hc).leaks .call
    rw [Leak.count, countP_filter_byLoop] at hleak
    rw [credit, credit, h.isClosed hc, hc]
    exact hleak
  | false =>
    have hkeep (hos : ∀ o ∈ os, o.byLoop = false) (hl : f.loop = e.loop) (hn : f.count = e.count)
        (ho : f.isClosed = e.isClosed) :
        os.countP Occurrence.isAcceptCall + f.credit due' ≤ e.credit due := by
      rw [Occurrence.countP_isAcceptCall_eq_zero hos, Nat.zero_add]
      exact credit_mono hl hn ho hasleep
    cases h with
    | aside _ hbeside hos =>
      refine hkeep (Occurrence.byLoop_of_not_onAcceptPath hos) hbeside.loop ?_ hbeside.closed
      rw [count, hbeside.occupancy, count]
    | receiving _ hos => exact hkeep hos rfl rfl rfl
    | refusal _ hos => exact hkeep (Occurrence.byLoop_of_not_onAcceptPath hos) rfl rfl rfl
    | opening hr => rw [granted_of_ok hr] at hg; cases hg
    | release => exact absurd rfl hrel
    | closing _ hos =>
      rw [Occurrence.countP_isAcceptCall_eq_zero (Occurrence.byLoop_of_not_onAcceptPath hos)]
      cases hl : e.loop with
      | none => simp [credit, left, shut, hl]
      | some l =>
        obtain ⟨-, hbound⟩ := ha.bounded l hl
        have hshut : e.shut.credit due' = l.station.left .call := left_of_loop hl .call
        rw [credit_of_loop hl hc, hshut, Nat.zero_add]
        refine Station.left_call_le_credit due ?_
        intro hslack
        omega
    | closeAgain ho => rw [hc] at ho; cases ho
    | @piece l s _ _ hl hst hp =>
      obtain ⟨-, hbound⟩ := ha.bounded l hl
      refine hp.credit_le hl hst hc (hst ▸ hbound) (hst ▸ hm l hl) (hb l hl) ?_
      intro hd
      exact ⟨(hdue hd).1, hst ▸ (hdue hd).2 rfl l hl⟩
    | @answered l outcome hl hst =>
      rw [credit_of_loop hl hc, hst]
      have hcf : (e.moveTo l (.settling outcome)).isClosed = false := hc
      rw [credit_of_loop (l := { l with station := .settling outcome }) rfl hcf]
      exact Nat.le_of_eq (Nat.zero_add _)
    | @rung l delay rung hl hst =>
      rw [credit_of_loop hl hc, hst]
      have hcf : (e.moveTo l (.napping delay true)).isClosed = false := hc
      rw [credit_of_loop (l := { l with station := .napping delay true }) rfl hcf,
        hring rfl hc]
      simp [Station.credit, count, moveTo]
    | _ => exact hkeep (List.forall_mem_nil _) rfl rfl rfl

end Endpoint

namespace Clocked

variable {C : Type} [Located C] {timer : Timer}

/-- How many accepts begin in a run within an instant. -/
def calls (timer : Timer) (c : Clocked C) (ms : List (Move C)) : Nat :=
  (c.scene.history (c.moves timer (ms.map .move))).countP Occurrence.isAcceptCall

theorem calls_cons (timer : Timer) (c : Clocked C) (m : Move C) (ms : List (Move C)) :
    c.calls timer (m :: ms) =
      (if c.admits m then ((c.scene.step m).2).countP Occurrence.isAcceptCall else 0) +
        (c.next timer (.move m)).calls timer ms := by
  rw [calls, calls, List.map_cons, moves, next, step]
  split
  · rw [Scene.history, gather, List.countP_append]
    rfl
  · rw [Nat.zero_add]

/-- How many accepts can begin before the loop must wait. -/
def credit (c : Clocked C) : Nat := c.scene.endpoint.credit c.due

theorem Stirring.append_iff {c : Clocked C} {ms ns : List (Move C)} :
    c.Stirring timer (ms ++ ns) ↔
      c.Stirring timer ms ∧ (c.after timer (ms.map .move)).Stirring timer ns := by
  induction ms generalizing c with
  | nil => exact ⟨fun h => ⟨trivial, h⟩, fun h => h.2⟩
  | cons m ms ih =>
    constructor
    · rintro ⟨hm, h⟩
      exact ⟨⟨hm, (ih.mp h).1⟩, (ih.mp h).2⟩
    · rintro ⟨⟨hm, h⟩, h'⟩
      exact ⟨hm, ih.mpr ⟨h, h'⟩⟩

theorem Stirring.not_mem_release {c : Clocked C} {ms : List (Move C)}
    (h : c.Stirring timer ms) : .release ∉ ms := by
  induction ms generalizing c with
  | nil => exact List.not_mem_nil
  | cons m ms ih =>
    obtain ⟨hm, h⟩ := h
    rw [List.mem_cons, not_or]
    refine ⟨?_, ih h⟩
    rintro rfl
    cases hm

namespace Reached

variable {c : Clocked C}

theorem admitted (h : c.Reached timer) : ∃ backlogs, c.scene.endpoint.Admitted backlogs := by
  obtain ⟨role, ipc, config, ks, rfl⟩ := h
  rw [scene_after]
  exact ⟨_, Scene.admitted_after role ipc config _⟩

theorem matched (h : c.Reached timer) : c.scene.endpoint.Matched := by
  obtain ⟨role, ipc, config, ks, rfl⟩ := h
  rw [scene_after]
  exact Scene.matched_after role ipc config _

theorem calls_move_le (h : c.Reached timer) (hpatient : timer.Patient) {m : Move C}
    (hrel : m ≠ .release) (hm : c.admits m = true) (hg : c.scene.endpoint.granted m = [])
    (hb : ∀ l ∈ c.scene.endpoint.loop, l.backlog ≠ Size.top) :
    (c.scene.step m).2.countP Occurrence.isAcceptCall + (c.next timer (.move m)).credit ≤
      c.credit := by
  obtain ⟨_, ha⟩ := h.admitted
  rw [Clocked.next, step, if_pos hm]
  refine (c.scene.change_step m).credit_le h.sound (c.scene.sound_next m h.sound) ha h.matched hb
    hrel hg ?_ (h.due_of_due_next hpatient)
  rintro rfl ho
  simpa [due, ho, admits] using hm

/-- Without a release no more accepts begin within an instant than the loop has credit for. -/
theorem calls_le (h : c.Reached timer) (hpatient : timer.Patient) {ms : List (Move C)}
    (hrel : .release ∉ ms) (hl : c.scene.endpoint.loop.isSome = true)
    (hb : ∀ l ∈ c.scene.endpoint.loop, l.backlog ≠ Size.top) : c.calls timer ms ≤ c.credit := by
  induction ms generalizing c with
  | nil => exact Nat.zero_le _
  | cons m ms ih =>
    obtain ⟨hne, hrel⟩ := not_or.mp (List.mem_cons.not.mp hrel)
    rw [calls_cons]
    cases hm : c.admits m with
    | false =>
      have hstays : c.next timer (.move m) = c := by rw [Clocked.next, step, hm]; rfl
      rw [if_neg (by decide), Nat.zero_add, hstays]
      exact ih h hrel hl hb
    | true =>
      have hg : c.scene.endpoint.granted m = [] := Endpoint.granted_of_loop h.sound hl m
      have hpaid := h.calls_move_le hpatient (Ne.symm hne) hm hg hb
      have hfixed := ((c.scene.change_step m).fixed h.sound hl).1
      have hnext : (c.next timer (.move m)).scene = c.scene.next m := by
        rw [Clocked.next, step, if_pos hm]
      rw [← hnext] at hfixed
      have hloop : (c.next timer (.move m)).scene.endpoint.loop.isSome = true := by
        rw [← Option.isSome_map, hfixed, Option.isSome_map, hl]
      have hbacklog : ∀ l ∈ (c.next timer (.move m)).scene.endpoint.loop, l.backlog ≠ Size.top := by
        intro l hmem
        have hmap : c.scene.endpoint.loop.map (·.backlog) = some l.backlog := by
          rw [← hfixed, Option.mem_def.mp hmem]
          rfl
        obtain ⟨l', hl', hsame⟩ := Option.map_eq_some_iff.mp hmap
        exact hsame ▸ hb l' hl'
      have hlater := ih (h.next (.move m)) hrel hloop hbacklog
      rw [if_pos rfl]
      omega

/-- As many accepts have been answered as were pending or have begun since, but for one that is
    pending. -/
theorem answers_add_pending (h : c.Reached timer) {ms : List (Move C)}
    (hms : c.Stirring timer ms) :
    ms.countP Move.isAnswer + (c.after timer (ms.map .move)).scene.endpoint.pending =
      c.calls timer ms + c.scene.endpoint.pending := by
  induction ms generalizing c with
  | nil => rfl
  | cons m ms ih =>
    obtain ⟨hm, hms⟩ := hms
    have hadmits := admits_of_stirs hm
    have hstep := (c.scene.change_step m).pending_eq h.sound
    rw [Endpoint.countP_filter_byLoop] at hstep
    have hanswers : (c.scene.endpoint.answers (c.scene.next m).endpoint m).length =
        if m.isAnswer then 1 else 0 := by
      cases m with
      | acceptEnds outcome =>
        have hone := Endpoint.answers_resolve (e := c.scene.endpoint) hm outcome
        exact congrArg List.length hone
      | _ => rfl
    have hrest := ih (h.next (.move m)) hms
    have hnext : (c.next timer (.move m)).scene = c.scene.next m := by
      rw [Clocked.next, step, if_pos hadmits]
    rw [hnext] at hrest
    rw [List.countP_cons, calls_cons, if_pos hadmits, List.map_cons]
    change _ + ((c.next timer (.move m)).after timer (ms.map .move)).scene.endpoint.pending = _
    omega

/-- Where there is no loop nothing is answered. -/
theorem answers_of_no_loop (h : c.Reached timer) (hl : c.scene.endpoint.loop = none)
    {ms : List (Move C)} (hms : c.Stirring timer ms) : ms.countP Move.isAnswer = 0 := by
  induction ms generalizing c with
  | nil => rfl
  | cons m ms ih =>
    obtain ⟨hm, hms⟩ := hms
    have hg : c.scene.endpoint.granted m = [] := by
      cases m with
      | listen => cases hm
      | _ => rfl
    have hnone : (c.next timer (.move m)).scene.endpoint.loop = none := by
      rw [next_of_stirs hm]
      exact (c.scene.change_step m).loop_eq_none hl hg
    have hno : ¬ m.isAnswer = true := by
      intro hans
      cases m with
      | acceptEnds outcome => simp [stirs, Endpoint.awaitsAccept, hl] at hm
      | _ => cases hans
    rw [List.countP_cons_of_neg hno]
    exact ih (h.next (.move m)) hnone hms

/-- A provider that is always ready answers no more often in an instant than there are places. -/
theorem answers_le (h : c.Reached timer) (hpatient : timer.Patient) {b : Size}
    (hb : b < Size.top) (hl : ∀ l ∈ c.scene.endpoint.loop, l.backlog = b) {ms : List (Move C)}
    (hms : c.Stirring timer ms) : ms.countP Move.isAnswer ≤ b.toNat + 1 := by
  cases hloop : c.scene.endpoint.loop with
  | none =>
    rw [h.answers_of_no_loop hloop hms]
    exact Nat.zero_le _
  | some l =>
    have hback : l.backlog = b := hl l hloop
    have hne : ∀ l ∈ c.scene.endpoint.loop, l.backlog ≠ Size.top := by
      intro l' hl' htop
      rw [← hl l' hl', htop] at hb
      exact absurd hb (by decide)
    have hcalls := h.calls_le hpatient hms.not_mem_release (by rw [hloop]; rfl) hne
    have hall := h.answers_add_pending hms
    have hroom := Endpoint.credit_add_pending_le c.due hloop
    rw [hback] at hroom
    change c.credit + _ ≤ _ at hroom
    omega

end Reached

/-- A run that nobody asked for can be completed: it goes on until nothing moves any more, or
    until so many answers have been given and the next one is due. -/
theorem Reached.exists_rest {c : Clocked C} (h : c.Reached timer) (hpatient : timer.Patient)
    (answers : Nat) {ms : List (Move C)} (hms : c.Stirring timer ms)
    (hle : ms.countP Move.isAnswer ≤ answers) :
    ∃ ns, c.Stirring timer (ms ++ ns) ∧ (ms ++ ns).countP Move.isAnswer ≤ answers ∧
      ∀ m, (c.after timer ((ms ++ ns).map .move)).stirs m = true →
        m.isAnswer = true ∧ (ms ++ ns).countP Move.isAnswer = answers := by
  -- The moves that are still to come are bounded, and each one leaves fewer.
  induction hn : c.unrest + 31 * answers - ms.length using Nat.strong_induction_on
    generalizing ms with
  | _ n ih =>
    by_cases hmore : ∃ m, (c.after timer (ms.map .move)).stirs m = true ∧
        (m.isAnswer = true → ms.countP Move.isAnswer < answers)
    · obtain ⟨m, hm, hanswer⟩ := hmore
      have hlonger : c.Stirring timer (ms ++ [m]) := Stirring.append_iff.mpr ⟨hms, hm, trivial⟩
      have hcount : (ms ++ [m]).countP Move.isAnswer ≤ answers := by
        rw [List.countP_append, List.countP_singleton]
        split
        · next hans => exact hanswer hans
        · exact hle
      have hlen := h.length_le hpatient hlonger
      rw [List.length_append, List.length_singleton] at hlen
      have hfewer : c.unrest + 31 * answers - (ms ++ [m]).length < n := by
        rw [List.length_append, List.length_singleton]
        omega
      obtain ⟨ns, hns, hbound, hrest⟩ := ih _ hfewer hlonger hcount rfl
      rw [List.append_assoc] at hns hbound hrest
      exact ⟨[m] ++ ns, hns, hbound, hrest⟩
    · refine ⟨[], by rwa [List.append_nil], by rwa [List.append_nil], ?_⟩
      intro m hm
      rw [List.append_nil] at hm ⊢
      have hnot : ¬ (m.isAnswer = true → ms.countP Move.isAnswer < answers) :=
        fun hanswer => hmore ⟨m, hm, hanswer⟩
      obtain ⟨hans, hfull⟩ := Classical.not_imp.mp hnot
      exact ⟨hans, by omega⟩

omit [Located C] in
/-- A loop that has work to do is not at rest. -/
theorem waits_of_stirs {c : Clocked C} (h : ∀ m, c.stirs m = true → m.isAnswer = true) :
    c.scene.endpoint.waits = true := by
  cases hw : c.scene.endpoint.waits with
  | true => rfl
  | false =>
    have hwork := h .work (by simp [stirs, hw])
    cases hwork

/-- No busy loop. After every run of a fresh endpoint, whatever its timing is:

    The cycle after one that is throttled, or whose accept fails, begins a millisecond at least
    after a delay has begun, and the delay is at least that long.

    If the loop is about to begin a cycle with `n` connections counted, and the backlog `b` is not
    the largest word, then at most `b + 1 - n` accepts begin in this instant unless a connection is
    released.

    If nobody asks for anything, then the tasks and a provider with a number of answers ready make
    finitely many moves in this instant, and whatever they have done so far, they can go on until
    the loop waits and nothing is left to do but to answer, once all answers have been given.

    Below the largest word the number of answers need not be bounded: even a provider that is always
    ready answers no more than `b + 1` accepts, and then everything is at rest. -/
theorem no_busy_loop (hpatient : timer.Patient) (role : Role) (ipc : Bool) (config : Config)
    (ks : List (Tick C)) :
    let c := (start role ipc config).after timer ks
    (∀ part t n b, part ++ [(t, .cycle n b)] <+: (start role ipc config).beats timer ks →
      troubled part = true → Rested t part) ∧
    (∀ l ∈ c.scene.endpoint.loop, l.station = .cycling → l.backlog < Size.top →
      ∀ ms, .release ∉ ms →
        c.calls timer ms ≤ l.backlog.toNat + 1 - c.scene.endpoint.count.toNat) ∧
    (∀ answers ms, c.Stirring timer ms → ms.countP Move.isAnswer ≤ answers →
      ms.length ≤ c.unrest + 31 * answers ∧
      ∃ ns, c.Stirring timer (ms ++ ns) ∧ (ms ++ ns).countP Move.isAnswer ≤ answers ∧
        let d := c.after timer ((ms ++ ns).map .move)
        d.scene.endpoint.waits = true ∧
        ∀ m, d.stirs m = true → m.isAnswer = true ∧ (ms ++ ns).countP Move.isAnswer = answers) ∧
    (∀ b, b < Size.top → (∀ l ∈ c.scene.endpoint.loop, l.backlog = b) →
      ∀ ms, c.Stirring timer ms →
        ms.length ≤ c.unrest + 31 * (b.toNat + 1) ∧
        ∃ ns, c.Stirring timer (ms ++ ns) ∧
          let d := c.after timer ((ms ++ ns).map .move)
          d.scene.endpoint.waits = true ∧ ∀ m, d.stirs m = false) := by
  intro c
  have h : c.Reached timer := reached_after timer role ipc config ks
  refine ⟨fun part t n b => lull hpatient role ipc config ks, ?_, ?_, ?_⟩
  · intro l hl hs hb ms hrel
    have hne : ∀ l ∈ c.scene.endpoint.loop, l.backlog ≠ Size.top := by
      rintro l' hl' htop
      obtain rfl : l = l' := Option.mem_unique hl hl'
      rw [htop] at hb
      exact absurd hb (by decide)
    refine Nat.le_trans (h.calls_le hpatient hrel (Option.isSome_of_mem hl) hne) ?_
    rw [credit, Endpoint.credit, Option.mem_def.mp hl]
    split
    · rw [Endpoint.left_of_loop hl, hs]
      exact Nat.zero_le _
    · change l.station.credit _ _ ≤ _
      exact l.station.credit_le _ _
  · intro answers ms hms hle
    have hlen := h.length_le hpatient hms
    refine ⟨by omega, ?_⟩
    obtain ⟨ns, hns, hbound, hrest⟩ := h.exists_rest hpatient answers hms hle
    exact ⟨ns, hns, hbound, waits_of_stirs fun m hm => (hrest m hm).1, hrest⟩
  · intro b hb hl ms hms
    have hanswers := h.answers_le hpatient hb hl hms
    have hlen := h.length_le hpatient hms
    refine ⟨by omega, ?_⟩
    obtain ⟨ns, hns, -, hrest⟩ := h.exists_rest hpatient (b.toNat + 1) hms hanswers
    have hfinal : ∀ m, (c.after timer ((ms ++ ns).map .move)).stirs m = false := by
      intro m
      cases hm : (c.after timer ((ms ++ ns).map .move)).stirs m with
      | false => rfl
      | true =>
        -- One more answer would be one too many.
        obtain ⟨hans, hfull⟩ := hrest m hm
        have hmore : c.Stirring timer ((ms ++ ns) ++ [m]) :=
          Stirring.append_iff.mpr ⟨hns, hm, trivial⟩
        have htoo := h.answers_le hpatient hb hl hmore
        rw [List.countP_append, List.countP_singleton, if_pos hans] at htoo
        omega
    refine ⟨ns, hns, waits_of_stirs fun m hm => ?_, hfinal⟩
    rw [hfinal m] at hm
    cases hm

/-- Settings without any delay, for a backlog of one. -/
def restless : Config :=
  { timing := ⟨⟨0, by decide⟩, ⟨0, by decide⟩⟩, rule := .pendingInstances, pendingInstances := 1 }

/-- A run in which an accept fails, and the loop comes to its next cycle. -/
def failing : List (Tick Link) :=
  [.move (.bind "a"), .move (.listen true 1 (.ok "a")), .move .takeReceiver, .move .work,
    .move .work, .move .work, .move (.acceptEnds (.error .listenerClosed)), .move .work,
    .move .work, .move .work, .move .work, .move .work, .move .work, .pass 1000000,
    .move .delayEnds, .move .work, .move .work, .move .work]

/-- An instant in which every accept succeeds as soon as it begins, until one place too many is
    taken. -/
def crowding : List (Move Link) :=
  [.poll .direct, .work, .work, .acceptEnds (.ok ⟨0, none⟩), .work, .work, .work, .work,
    .poll .direct, .work, .work, .acceptEnds (.ok ⟨1, none⟩), .work, .work, .work, .work,
    .poll .direct, .work, .work, .work]

/-- What it leads to. -/
def recovered : Clocked Link := (start .server false restless).after .rehearsed failing

/-- Nobody has asked for the millisecond that the failure costs; after it two accepts begin at once,
    and no third. -/
theorem no_busy_loop_of_crowding :
    Rested recovered.now ((start .server false restless).beats .rehearsed failing) ∧
      recovered.Stirring .rehearsed crowding ∧
      recovered.calls .rehearsed crowding ≤ 2 ∧ recovered.calls .rehearsed crowding = 2 ∧
      crowding.length ≤ recovered.unrest + 31 * 2 ∧
      (recovered.after .rehearsed (crowding.map .move)).scene.endpoint.napDelay?.isSome = true := by
  have hpart : (start .server false restless).beats .rehearsed failing ++
      [(1000000, .cycle 0 (some 1))] <+:
        (start .server false restless).beats .rehearsed (failing ++ [.move .work]) := by
    decide
  have hrested := (no_busy_loop Timer.patient_rehearsed .server false restless
    (failing ++ [.move .work])).1 _ _ _ _ hpart (by decide)
  have hstirring : recovered.Stirring .rehearsed crowding := by decide
  have hlaw := (no_busy_loop Timer.patient_rehearsed .server false restless failing).2
  have hcycling : recovered.scene.endpoint.loop = some ⟨1, .cycling⟩ := by rfl
  have hcalls : recovered.calls .rehearsed crowding ≤ 2 :=
    hlaw.1 ⟨1, .cycling⟩ hcycling rfl (by decide) crowding hstirring.not_mem_release
  have hlen : crowding.length ≤ recovered.unrest + 31 * 2 :=
    (hlaw.2.1 2 crowding hstirring (by decide)).1
  have hnow : recovered.now = 1000000 := by decide
  rw [hnow]
  exact ⟨hrested, hstirring, hcalls, by decide, hlen, by decide⟩

end Clocked

end LocalEndpoint
