import LocalEndpoint.Proofs.Preemption

/-! The counters conserve accept work. A loop has one thing in hand at a time (`Station.holding?`):
    an accept that is pending, its outcome, the event that reports it, or a delay still to be
    counted. Each step takes something in hand, passes it on, books it in a counter, or stops and
    lets go of it (`Endpoint.wasted`). So what has begun is what has been counted, what is in hand
    and what has been let go of (`Books`), and the last two are one thing at most, since a loop
    stops once. -/

namespace LocalEndpoint

/-- What a loop can have in hand. -/
inductive Holding (C : Type) where
  /-- An accept that is pending. -/
  | accept
  /-- The outcome of an accept, which the loop has not taken note of yet. -/
  | outcome (outcome : Except Failure C)
  /-- An event that has settled and has not been sent. -/
  | report (event : Event C)
  /-- A delay that is due and has not been counted. -/
  | pause

/-- Whether an event brings a connection. -/
def Event.isOk {C : Type} (event : Event C) : Bool := event.code == .ok

@[simp] theorem Event.isOk_accepted {C : Type} (h : Handle C) : (Event.accepted h).isOk = true :=
  rfl

theorem Event.isOk_forAccept {C : Type} (f : Failure) :
    (Event.failed (Code.forAccept f) : Event C).isOk = false :=
  beq_false_of_ne (Code.forAccept_ne_ok f)

namespace Holding

variable {C : Type}

/-- Whether an accept has begun that no counter shows. -/
@[simp] def isAccept : Holding C → Bool
  | .accept | .outcome _ => true
  | .report event => event.isOk
  | .pause => false

/-- Whether a cycle has been throttled or a failure has been counted, but not the delay after it. -/
@[simp] def isPause : Holding C → Bool
  | .accept | .outcome _ => false
  | .report event => !event.isOk
  | .pause => true

theorem exists_isAccept_iff {xs : List (Holding C)} (h : .accept ∉ xs) :
    (∃ x ∈ xs, x.isAccept = true) ↔
      (∃ event, .report event ∈ xs ∧ event.isOk = true) ∨ ∃ outcome, .outcome outcome ∈ xs := by
  constructor
  · rintro ⟨x, hx, hp⟩
    cases x with
    | accept => exact absurd hx h
    | outcome outcome => exact .inr ⟨outcome, hx⟩
    | report event => exact .inl ⟨event, hx, hp⟩
    | pause => cases hp
  · rintro (⟨event, hx, hp⟩ | ⟨outcome, hx⟩)
    · exact ⟨.report event, hx, hp⟩
    · exact ⟨.outcome outcome, hx, rfl⟩

theorem exists_isPause_iff {xs : List (Holding C)} (h : .pause ∉ xs) :
    (∃ x ∈ xs, x.isPause = true) ↔ ∃ event, .report event ∈ xs ∧ event.isOk = false := by
  constructor
  · rintro ⟨x, hx, hp⟩
    cases x with
    | pause => exact absurd hx h
    | report event => exact ⟨event, hx, by simpa using hp⟩
    | accept | outcome => cases hp
  · rintro ⟨event, hx, hp⟩
    exact ⟨.report event, hx, by simpa using hp⟩

end Holding

namespace Station

variable {C : Type}

/-- What a loop has in hand at a station. -/
@[simp] def holding? : Station C → Option (Holding C)
  | .accepting => some .accept
  | .settling outcome => some (.outcome outcome)
  | .offering event _ | .reserving event _ | .admitting event _ => some (.report event)
  | .receding | .counting _ => some .pause
  | _ => none

/-- The event in hand is OK exactly if the loop does not wait after it, and exactly then it brings a
    connection. -/
@[simp] def Matched : Station C → Prop
  | .offering event retries | .reserving event retries | .admitting event retries =>
    event.isOk = !retries ∧ event.handle.isSome = !retries
  | _ => True

/-- What a loop lets go of where it turns from one station to another, to stop. -/
def wasted (s s' : Station C) : List (Holding C) :=
  if !s.ends && s'.ends then s.holding?.toList else []

/-- A loop stops once, and then it lets go of one thing at most. -/
theorem length_wasted_add_le {s s' : Station C} (h : (!s.ends || s'.ends) = true) :
    (s.wasted s').length + (!s'.ends).toNat ≤ (!s.ends).toNat := by
  rw [wasted]
  cases hs : s.ends with
  | true =>
    rw [hs] at h
    have hs' : s'.ends = true := h
    simp [hs']
  | false =>
    cases hs' : s'.ends with
    | true => cases s.holding? <;> simp
    | false => simp

theorem holding?_of_ends {s : Station C} (h : s.ends = true) : s.holding? = none := by
  cases s <;> first | rfl | cases h

end Station

namespace Occurrence

variable {C : Type}

/-- The counter of accept work that an occurrence is counted by. -/
@[simp] def counter? : Occurrence C → Option Counter
  | .admitted _ => some .accepted
  | .acceptFailed _ => some .acceptFailures
  | .throttled .. => some .throttled
  | .backedOff _ => some .backoffs
  | _ => none

theorem counter?_of_not_byLoop {o : Occurrence C} (h : o.byLoop = false) : o.counter? = none := by
  cases o <;> first | rfl | cases h

theorem countP_isAcceptCall_eq_zero {os : List (Occurrence C)} (h : ∀ o ∈ os, o.byLoop = false) :
    os.countP isAcceptCall = 0 := by
  rw [List.countP_eq_zero]
  intro o ho hcall
  have hnot := h o ho
  cases o <;> simp at hnot hcall

theorem filterMap_sent?_eq_nil {os : List (Occurrence C)} (h : ∀ o ∈ os, o.byLoop = false) :
    os.filterMap sent? = [] := by
  rw [List.filterMap_eq_nil_iff]
  intro o ho
  exact sent?_of_not_byLoop (h o ho)

end Occurrence

/-- How often `os` increment a counter. -/
def Counter.increments {C : Type} (c : Counter) (os : List (Occurrence C)) : Nat :=
  (os.filterMap Occurrence.counter?).count c

theorem Counter.increments_append {C : Type} (c : Counter) (os os' : List (Occurrence C)) :
    c.increments (os ++ os') = c.increments os + c.increments os' := by
  rw [increments, List.filterMap_append, List.count_append]
  rfl

theorem Counter.increments_of_not_byLoop {C : Type} (c : Counter) {os : List (Occurrence C)}
    (h : ∀ o ∈ os, o.byLoop = false) : c.increments os = 0 := by
  have hnil : os.filterMap Occurrence.counter? = [] := by
    rw [List.filterMap_eq_nil_iff]
    intro o ho
    exact Occurrence.counter?_of_not_byLoop (h o ho)
  rw [increments, hnil]
  rfl

/-- Whether a move is a close. -/
def Move.isClose {C : Type} : Move C → Bool
  | .close _ => true
  | _ => false

namespace Endpoint

variable {C : Type}

/-- What the loop has in hand. -/
def holding? (e : Endpoint C) : Option (Holding C) := e.loop.bind (·.station.holding?)

/-- What the loop lets go of when it turns to stop, and leaves the endpoint as `f`. -/
def wasted (e f : Endpoint C) : List (Holding C) :=
  if !e.ending && f.ending then e.holding?.toList else []

theorem wasted_eq_nil {e f : Endpoint C} (h : f.ending = e.ending) : e.wasted f = [] := by
  rw [wasted, h]
  cases e.ending <;> rfl

/-- How the accept work adds up that is done while `e` becomes `f`. -/
structure Books (e f : Endpoint C) (os : List (Occurrence C)) (wasted : List (Holding C)) :
    Prop where
  tally : ∀ c, c ≠ .connects → c ≠ .failedConnects →
    f.tally.get c = e.tally.get c + UInt64.ofNat (c.increments os)
  accepts : os.countP Occurrence.isAcceptCall + e.holding?.toList.countP Holding.isAccept =
    Counter.accepted.increments os + Counter.acceptFailures.increments os +
      f.holding?.toList.countP Holding.isAccept + wasted.countP Holding.isAccept
  pauses : Counter.throttled.increments os + Counter.acceptFailures.increments os +
      e.holding?.toList.countP Holding.isPause =
    Counter.backoffs.increments os +
      f.holding?.toList.countP Holding.isPause + wasted.countP Holding.isPause
  sent : Counter.accepted.increments os = (os.filterMap Occurrence.sent?).countP Event.isOk
  stops : wasted.length + (!f.ending).toNat ≤ (!e.ending).toNat

theorem holding?_of_loop {e : Endpoint C} {l : AcceptLoop C} (hl : e.loop = some l) :
    e.holding? = l.station.holding? := by rw [holding?, hl]; rfl

/-- A loop that ends has nothing in hand, any other one thing at most. -/
theorem length_holding?_le (e : Endpoint C) : e.holding?.toList.length ≤ (!e.ending).toNat := by
  cases hl : e.loop with
  | none => rw [holding?, hl]; exact Nat.zero_le _
  | some l =>
    rw [holding?_of_loop hl, ending_of_loop hl]
    cases hs : l.station.ends with
    | true => rw [Station.holding?_of_ends hs]; exact Nat.le_refl _
    | false => cases l.station.holding? <;> simp

namespace Books

variable {e f g : Endpoint C} {os os' : List (Occurrence C)} {ws ws' : List (Holding C)}

theorem refl (e : Endpoint C) : Books e e [] [] where
  tally _ _ _ := (UInt64.add_zero _).symm
  accepts := by simp [Counter.increments]
  pauses := by simp [Counter.increments]
  sent := rfl
  stops := by simp

theorem trans (h : Books e f os ws) (h' : Books f g os' ws') :
    Books e g (os ++ os') (ws ++ ws') where
  tally := by
    intro c hc hf
    rw [h'.tally c hc hf, h.tally c hc hf, c.increments_append, UInt64.ofNat_add, UInt64.add_assoc]
  accepts := by
    have hfirst := h.accepts
    have hthen := h'.accepts
    simp only [List.countP_append, Counter.increments_append]
    omega
  pauses := by
    have hfirst := h.pauses
    have hthen := h'.pauses
    simp only [List.countP_append, Counter.increments_append]
    omega
  sent := by
    rw [Counter.increments_append, h.sent, h'.sent, List.filterMap_append, List.countP_append]
  stops := by
    have hfirst := h.stops
    have hthen := h'.stops
    rw [List.length_append]
    omega

/-- The loop does nothing. -/
theorem keep (hholding : f.holding? = e.holding?) (hending : f.ending = e.ending)
    (hos : ∀ o ∈ os, o.byLoop = false)
    (ht : ∀ c, c ≠ .connects → c ≠ .failedConnects → f.tally.get c = e.tally.get c) :
    Books e f os (e.wasted f) := by
  have hzero (c : Counter) : c.increments os = 0 := c.increments_of_not_byLoop hos
  have hcalls : os.countP Occurrence.isAcceptCall = 0 :=
    Occurrence.countP_isAcceptCall_eq_zero hos
  have hsent : os.filterMap Occurrence.sent? = [] := Occurrence.filterMap_sent?_eq_nil hos
  rw [wasted_eq_nil hending]
  constructor
  case tally =>
    intro c hc hf
    rw [ht c hc hf, hzero]
    exact (UInt64.add_zero _).symm
  case accepts => rw [hcalls, hzero, hzero, hholding, Nat.zero_add]; rfl
  case pauses => rw [hzero, hzero, hzero, hholding]; rfl
  case sent => rw [hzero, hsent]; rfl
  case stops => rw [hending]; exact Nat.le_of_eq (Nat.zero_add _)

/-- The loop goes on to another station, while the counters `cs` are incremented. -/
theorem goOn {l : AcceptLoop C} {s s' : Station C} (cs : List Counter) (hl : e.loop = some l)
    (hs : l.station = s) (hf : f.loop = some { l with station := s' })
    (hcs : os.filterMap Occurrence.counter? = cs)
    (htally : ∀ c, f.tally.get c = e.tally.get c + UInt64.ofNat (cs.count c))
    (haccepts : os.countP Occurrence.isAcceptCall + s.holding?.toList.countP Holding.isAccept =
      cs.count .accepted + cs.count .acceptFailures + s'.holding?.toList.countP Holding.isAccept +
        (s.wasted s').countP Holding.isAccept)
    (hpauses : cs.count .throttled + cs.count .acceptFailures +
        s.holding?.toList.countP Holding.isPause =
      cs.count .backoffs + s'.holding?.toList.countP Holding.isPause +
        (s.wasted s').countP Holding.isPause)
    (hsent : cs.count .accepted = (os.filterMap Occurrence.sent?).countP Event.isOk)
    (hends : (!s.ends || s'.ends) = true) : Books e f os (e.wasted f) := by
  have hholding : e.holding? = s.holding? := by rw [holding?_of_loop hl, hs]
  have hholding' : f.holding? = s'.holding? := holding?_of_loop hf
  have hending : e.ending = s.ends := by rw [ending_of_loop hl, hs]
  have hending' : f.ending = s'.ends := ending_of_loop hf
  have hwasted : e.wasted f = s.wasted s' := by
    rw [wasted, Station.wasted, hending, hending', hholding]
  rw [hwasted]
  constructor
  case tally =>
    intro c _ _
    rw [htally, Counter.increments, hcs]
  case accepts =>
    rw [Counter.increments, Counter.increments, hcs, hholding, hholding']
    exact haccepts
  case pauses =>
    rw [Counter.increments, Counter.increments, Counter.increments, hcs, hholding, hholding']
    exact hpauses
  case sent =>
    rw [Counter.increments, hcs]
    exact hsent
  case stops =>
    rw [hending, hending']
    exact Station.length_wasted_add_le hends

end Books

theorem get_tally_keep (e : Endpoint C) (c : Counter) :
    e.tally.get c = e.tally.get c + UInt64.ofNat (([] : List Counter).count c) :=
  (UInt64.add_zero _).symm

theorem get_tally_bump (e : Endpoint C) (d c : Counter) :
    (e.bump d).tally.get c = e.tally.get c + UInt64.ofNat ([d].count c) := by
  refine (e.tally.get_bump d c).trans ?_
  by_cases h : d = c
  · rw [if_pos h, h, List.count_singleton_self]
    rfl
  · rw [if_neg h, List.count_eq_zero_of_not_mem (by simpa using Ne.symm h)]
    exact (UInt64.add_zero _).symm

/-- A piece of the loop's work adds up. -/
theorem Piece.books [Located C] {e f : Endpoint C} {l : AcceptLoop C} {s : Station C}
    {os : List (Occurrence C)} (hp : Piece e l s f os) (hl : e.loop = some l)
    (hs : l.station = s) (hm : s.Matched) : Books e f os (e.wasted f) := by
  cases hp with
  | await | rest =>
    rw [wasted_eq_nil rfl]
    exact .refl e
  | leave hleaves =>
    refine .goOn [] hl hs rfl rfl e.get_tally_keep ?_ ?_ rfl (Bool.or_true _)
    · cases s <;> first | cases hleaves; done | simp [Station.wasted, Station.ends]
    · cases s <;> first | cases hleaves; done | simp [Station.wasted, Station.ends]
  | discard hdiscards =>
    refine .goOn [] hl hs rfl rfl e.get_tally_keep ?_ ?_ rfl (Bool.or_true _)
    · cases s <;> first | cases hdiscards; done | simp [Station.wasted, Station.ends]
    · cases s <;> first | cases hdiscards; done | simp [Station.wasted, Station.ends]
  | throttle =>
    exact .goOn [.throttled] hl hs rfl rfl (e.get_tally_bump .throttled) rfl rfl rfl rfl
  | @fail f hc =>
    have hfailed : (Event.failed (Code.forAccept f) : Event C).isOk = false :=
      Event.isOk_forAccept f
    refine .goOn [.acceptFailures] hl hs rfl rfl (e.get_tally_bump .acceptFailures) ?_ ?_ rfl rfl
    · simp [Station.wasted, Station.ends, hfailed]
    · simp [Station.wasted, Station.ends, hfailed]
  | @enter event retries hc hh =>
    obtain ⟨hok, hhandle⟩ := hm
    obtain rfl : retries = false := by simpa [hh] using hhandle
    refine .goOn [.accepted] hl hs rfl rfl (e.get_tally_bump .accepted) ?_ ?_ ?_ rfl
    · simp [Station.afterSending, Station.wasted, Station.ends, hok]
    · simp [Station.afterSending, Station.wasted, Station.ends, hok]
    · change 1 = [event].countP Event.isOk
      simp [hok]
  | @send event retries hc hh =>
    obtain ⟨hok, hhandle⟩ := hm
    obtain rfl : retries = true := by simpa [hh] using hhandle
    refine .goOn [] hl hs rfl rfl e.get_tally_keep ?_ ?_ ?_ rfl
    · simp [Station.afterSending, Station.wasted, Station.ends, hok]
    · simp [Station.afterSending, Station.wasted, Station.ends, hok]
    · simp [Occurrence.sent?, hok]
  | count =>
    exact .goOn [.backoffs] hl hs rfl rfl (e.get_tally_bump .backoffs) rfl rfl rfl rfl
  | stop => exact .goOn [] hl hs rfl rfl e.get_tally_keep rfl rfl rfl (Bool.or_true _)
  | _ =>
    refine .goOn [] hl hs rfl rfl e.get_tally_keep ?_ ?_ rfl rfl
    · simp [Station.wasted, Station.ends]
    · simp [Station.wasted, Station.ends]

/-- The event in hand is matched. -/
def Matched (e : Endpoint C) : Prop := ∀ l ∈ e.loop, l.station.Matched

variable [Located C] {e f : Endpoint C} {os : List (Occurrence C)}

theorem Piece.matched {l : AcceptLoop C} {s : Station C} (hp : Piece e l s f os)
    (hl : e.loop = some l) (hs : l.station = s) (hm : s.Matched) : f.Matched := by
  have hgo {e' : Endpoint C} {s' : Station C} (hs' : s'.Matched) : (e'.moveTo l s').Matched := by
    intro m hmem
    cases hmem
    exact hs'
  cases hp with
  | await | rest =>
    intro m hmem
    rw [hl] at hmem
    cases hmem
    rw [hs]
    exact hm
  | succeed => exact hgo ⟨rfl, rfl⟩
  | @fail f => exact hgo ⟨Event.isOk_forAccept f, rfl⟩
  | offer | reserve | block => exact hgo hm
  | @enter _ retries | @send _ retries => cases retries <;> exact hgo trivial
  | _ => exact hgo trivial

/-- Every move adds up. -/
theorem Change.books {m : Move C} (h : Change e m f os) (hs : e.Sound) (hm : e.Matched) :
    Books e f os (e.wasted f) ∧ f.Matched := by
  have hkeep (hl : f.loop = e.loop) (hos : ∀ o ∈ os, o.byLoop = false)
      (ht : ∀ c, c ≠ .connects → c ≠ .failedConnects → f.tally.get c = e.tally.get c) :
      Books e f os (e.wasted f) ∧ f.Matched := by
    have hholding : f.holding? = e.holding? := by rw [holding?, holding?, hl]
    refine ⟨.keep hholding (ending_congr hl) hos ht, ?_⟩
    rw [Matched, hl]
    exact hm
  cases h with
  | aside _ hb hos => exact hkeep hb.loop (Occurrence.byLoop_of_not_onAcceptPath hos) hb.tally
  | receiving _ hos => exact hkeep rfl hos (fun _ _ _ => rfl)
  | refusal _ hos | closing _ hos =>
    exact hkeep rfl (Occurrence.byLoop_of_not_onAcceptPath hos) (fun _ _ _ => rfl)
  | opening _ hc hn hos =>
    have hloop : e.loop = none := by simpa [hn] using hs.loop hc
    refine ⟨.keep ?_ ?_ (Occurrence.byLoop_of_not_onAcceptPath hos) (fun _ _ _ => rfl), ?_⟩
    · rw [holding?, holding?, hloop]
      rfl
    · rw [ending, ending, hloop]
      rfl
    · intro l hl
      cases hl
      trivial
  | piece hl hst hp => exact ⟨hp.books hl hst (hst ▸ hm _ hl), hp.matched hl hst (hst ▸ hm _ hl)⟩
  | answered hl hst =>
    refine ⟨.goOn [] hl hst rfl rfl e.get_tally_keep rfl rfl rfl rfl, ?_⟩
    intro l' hl'
    cases hl'
    trivial
  | rung hl hst =>
    refine ⟨.goOn [] hl hst rfl rfl e.get_tally_keep rfl rfl rfl rfl, ?_⟩
    intro l' hl'
    cases hl'
    trivial
  | _ => exact hkeep rfl (List.forall_mem_nil _) (fun _ _ _ => rfl)

/-! ### What is let go of -/

/-- An endpoint whose loop does not pass over a delay because of a close. -/
def Heeding (e : Endpoint C) : Prop :=
  e.isClosed = true → ∀ l ∈ e.loop, l.station ≠ .receding

/-- A closed endpoint's loop lets go of the outcome of an accept, or of a delay that a close has
    overtaken; any loop may let go of an event. -/
theorem Change.mem_wasted {m : Move C} (h : Change e m f os) {x : Holding C}
    (hx : x ∈ e.wasted f) :
    (∃ event, x = .report event) ∨
      e.isClosed = true ∧ ((∃ outcome, x = .outcome outcome) ∨ x = .pause ∧ ¬ e.Heeding) := by
  have hturn : e.ending = false ∧ f.ending = true := by
    rw [wasted] at hx
    split at hx
    · next h => simpa using h
    · cases hx
  have hkeep (hl : f.ending = e.ending) : False := by
    rw [hl, hturn.1] at hturn
    cases hturn.2
  rw [wasted, hturn.1, hturn.2] at hx
  cases h with
  | aside _ hb => exact (hkeep (ending_congr hb.loop)).elim
  | opening _ hc hn =>
    cases hturn.2
  | @piece l s _ _ hl hst hp =>
    have hholding : x ∈ s.holding?.toList := by
      rw [← hst, ← holding?_of_loop hl]
      exact hx
    cases hp with
    | leave hleaves hc =>
      cases s with
      | offering event => exact .inl ⟨event, by simpa using hholding⟩
      | receding =>
        refine .inr ⟨hc, .inr ⟨by simpa using hholding, ?_⟩⟩
        intro hheeding
        exact hheeding hc l hl hst
      | cycling | napping | waking => cases hholding
      | _ => cases hleaves
    | discard hdiscards hc =>
      cases s with
      | settling outcome => exact .inr ⟨hc, .inl ⟨outcome, by simpa using hholding⟩⟩
      | admitting event => exact .inl ⟨event, by simpa using hholding⟩
      | _ => cases hdiscards
    | @forsake event => exact .inl ⟨event, by simpa using hholding⟩
    | stop => cases hholding
    | await | rest => exact (hkeep rfl).elim
    | @enter _ retries | @send _ retries => cases retries <;> cases hturn.2
    | _ => cases hturn.2
  | answered | rung => cases hturn.2
  | _ => exact (hkeep rfl).elim

/-- Where closes come at awaits, a loop heeds them. -/
theorem Change.heeding {m : Move C} (h : Change e m f os) (hh : e.Heeding)
    (hm : m.isClose = true → e.suspended = true) : f.Heeding := by
  have hclosed {b : Bool} (ho : b = false) (hc : b = true) : False := by
    rw [ho] at hc
    cases hc
  cases h with
  | aside _ hb => rw [Heeding, hb.closed, hb.loop]; exact hh
  | opening =>
    intro hc
    cases hc
  | closing =>
    intro _ l hl hst
    have hsusp := hm rfl
    rw [suspended, Option.all_eq_true] at hsusp
    have hat := hsusp l hl
    rw [hst] at hat
    cases hat
  | piece hl hst hp =>
    intro hc l' hl' hst'
    cases hp with
    | await | rest => exact hh hc l' hl' hst'
    | throttle ho | enter ho | send ho => exact hclosed ho hc
    | _ =>
      cases hl'
      cases hst'
  | answered hl hst | rung hl hst =>
    intro _ l' hl' hst'
    cases hl'
    cases hst'
  | _ => exact hh

/-! ### Where the loop waits -/

omit [Located C] in
/-- Where a loop waits, what it has in hand is a pending accept or an event that waits for room. -/
theorem holding?_of_waits (h : e.waits = true) :
    (e.awaitsAccept = true ∧ e.holding? = some .accept) ∨
      (e.awaitsAccept = false ∧ e.waitsForRoom = true ∧
        ∃ event, e.holding? = some (.report event)) ∨
      (e.awaitsAccept = false ∧ e.waitsForRoom = false ∧ e.holding? = none) := by
  cases hl : e.loop with
  | none => simp [awaitsAccept, waitsForRoom, holding?, hl]
  | some l =>
    obtain ⟨b, s⟩ := l
    simp only [waits, awaitsAccept, waitsForRoom, napDelay?, loopEnded, hl] at h
    cases s with
    | offering event retries =>
      have hroom : (!e.isClosed && !e.receiverGone && !e.hasRoom) = true := by simpa using h
      simp [awaitsAccept, waitsForRoom, holding?, hl, hroom]
    | accepting | stopped | napping => simp [awaitsAccept, waitsForRoom, holding?, hl]
    | _ => simp at h

omit [Located C] in
theorem loopEnded_of_ending (hw : e.waits = true) (he : e.ending = true) : e.loopEnded = true := by
  cases hl : e.loop with
  | none =>
    rw [ending, hl] at he
    cases he
  | some l =>
    obtain ⟨b, s⟩ := l
    rw [ending, hl] at he
    simp only [waits, awaitsAccept, waitsForRoom, napDelay?, loopEnded, hl] at hw ⊢
    cases s with
    | stopped => rfl
    | stopping => simp at hw
    | _ => cases he

omit [Located C] in
/-- What is in hand and what has been let go of are one thing at most. -/
theorem Books.length_holding?_add_le {ws : List (Holding C)} (h : Books e f os ws) :
    f.holding?.toList.length + ws.length ≤ 1 := by
  have hholding := f.length_holding?_le
  have hstops := h.stops
  have hone : (!e.ending).toNat ≤ 1 := Bool.toNat_le _
  omega

omit [Located C] in
/-- A loop that has let go of something and waits has ended. -/
theorem Books.loopEnded_of_mem {ws : List (Holding C)} (h : Books e f os ws) {x : Holding C}
    (hx : x ∈ ws) (hw : f.waits = true) : f.loopEnded = true := by
  refine loopEnded_of_ending hw ?_
  have hpos : 0 < ws.length := List.length_pos_of_mem hx
  have hstops := h.stops
  have hone : (!e.ending).toNat ≤ 1 := Bool.toNat_le _
  cases he : f.ending with
  | true => rfl
  | false =>
    rw [he] at hstops
    change ws.length + 1 ≤ _ at hstops
    omega

omit [Located C] in
theorem exists_isAccept_iff (h : e.waits = true) :
    (∃ x ∈ e.holding?.toList, x.isAccept = true) ↔
      e.awaitsAccept = true ∨
        (e.waitsForRoom = true ∧
          ∃ event, e.holding? = some (.report event) ∧ event.isOk = true) := by
  rcases holding?_of_waits h with ⟨ha, hh⟩ | ⟨ha, hr, event, hh⟩ | ⟨ha, hr, hh⟩
  · simp [ha, hh]
  · simp [ha, hr, hh]
  · simp [ha, hr, hh]

omit [Located C] in
theorem exists_isPause_iff (h : e.waits = true) :
    (∃ x ∈ e.holding?.toList, x.isPause = true) ↔
      e.waitsForRoom = true ∧ ∃ event, e.holding? = some (.report event) ∧ event.isOk = false := by
  rcases holding?_of_waits h with ⟨-, hh⟩ | ⟨-, hr, event, hh⟩ | ⟨-, hr, hh⟩
  · simp [hh]
  · simp [hr, hh]
  · simp [hr, hh]

end Endpoint

/-- Of one thing at most there is one of a kind exactly if it is of that kind. -/
theorem countP_add_countP {α : Type} {xs ys : List α} (h : xs.length + ys.length ≤ 1)
    (p : α → Bool) :
    xs.countP p + ys.countP p ≤ 1 ∧
      (xs.countP p + ys.countP p = 1 ↔ (∃ x ∈ xs, p x = true) ∨ ∃ y ∈ ys, p y = true) := by
  have hxs := xs.countP_le_length (p := p)
  have hys := ys.countP_le_length (p := p)
  have hle : xs.countP p + ys.countP p ≤ 1 := by omega
  refine ⟨hle, ?_⟩
  rw [← List.countP_pos_iff, ← List.countP_pos_iff]
  omega

namespace Scene

variable {C : Type} [Located C]

open Endpoint (Books Matched)

/-- Whether every close in a run comes where the loop stands at an await, as it does if what the
    loop does between two awaits is one step. -/
def orderly : Scene C → List (Move C) → Bool
  | _, [] => true
  | s, m :: ms => (!m.isClose || s.endpoint.suspended) && orderly (s.next m) ms

/-- What the loop lets go of in a run when it stops. -/
def wasted (s : Scene C) (ms : List (Move C)) : List (Holding C) :=
  gather next (fun s m => s.endpoint.wasted (s.next m).endpoint) s ms

theorem books_after (s : Scene C) (ms : List (Move C)) (hs : s.endpoint.Sound)
    (hm : s.endpoint.Matched) :
    Books s.endpoint (s.after ms).endpoint (s.history ms) (s.wasted ms) := by
  induction ms generalizing s with
  | nil => exact .refl s.endpoint
  | cons m ms ih =>
    obtain ⟨hbooks, hmatched⟩ := (s.change_step m).books hs hm
    exact hbooks.trans (ih (s.next m) (s.sound_next m hs) hmatched)

theorem matched_after (role : Role) (ipc : Bool) (config : Config) (ms : List (Move C)) :
    ((start role ipc config).after ms).endpoint.Matched := by
  induction ms using List.reverseRecOn with
  | nil => exact fun l hl => by cases hl
  | append_singleton ms m ih =>
    rw [Runs.concat after]
    exact ((((start role ipc config).after ms).change_step m).books
      (sound_after role ipc config ms) ih).2

theorem mem_wasted (s : Scene C) (ms : List (Move C)) {x : Holding C} (hx : x ∈ s.wasted ms) :
    x ≠ .accept ∧ (s.endpoint.Heeding → s.orderly ms = true → x ≠ .pause) := by
  induction ms generalizing s with
  | nil => cases hx
  | cons m ms ih =>
    have hchange := s.change_step m
    rcases List.mem_append.mp hx with hx | hx
    · rcases hchange.mem_wasted hx with ⟨event, rfl⟩ | ⟨-, ⟨outcome, rfl⟩ | ⟨rfl, hnot⟩⟩
      · exact ⟨by simp, by simp⟩
      · exact ⟨by simp, by simp⟩
      · exact ⟨by simp, fun hheeding _ => absurd hheeding hnot⟩
    · obtain ⟨haccept, hpause⟩ := ih (s.next m) hx
      refine ⟨haccept, ?_⟩
      intro hheeding ho
      rw [orderly, Bool.and_eq_true] at ho
      refine hpause (hchange.heeding hheeding ?_) ho.2
      intro hclose
      simpa [hclose] using ho.1

/-- The counters conserve accept work. Whatever callers, provider, consumer and loop do, the counter
    of accepts is the number of OK events that have been sent. Where the loop waits, the accepts
    that have begun are those counted as accepted or failed, and one more exactly if an accept is
    pending, or an OK event waits for room, or the loop has ended and let go of an OK event or of an
    outcome that came after the close. Throttled cycles and failures are the delays that have been
    counted, and one more at most; where what the loop does between two awaits is one step, that is
    so exactly if a failure waits for room, or the loop has ended and let go of one. All this as
    long as no counter has wrapped. -/
theorem counters_conserve_accept_work (role : Role) (ipc : Bool) (config : Config)
    (ms : List (Move C)) :
    let s := start role ipc config
    let e := (s.after ms).endpoint
    let calls := (s.history ms).countP Occurrence.isAcceptCall
    let n (c : Counter) := (e.tally.get c).toNat
    let lost := s.wasted ms
    (∀ c : Counter, c.increments (s.history ms) < UInt64.size) →
      n .accepted = (s.sent ms).countP Event.isOk ∧
      (e.waits = true →
        (calls = n .accepted + n .acceptFailures ∨
          calls = n .accepted + n .acceptFailures + 1) ∧
        (calls = n .accepted + n .acceptFailures + 1 ↔
          e.awaitsAccept = true ∨
          (e.waitsForRoom = true ∧
            ∃ event, e.holding? = some (.report event) ∧ event.isOk = true) ∨
          (e.loopEnded = true ∧
            ((∃ event, .report event ∈ lost ∧ event.isOk = true) ∨
              ∃ outcome, .outcome outcome ∈ lost))) ∧
        (n .throttled + n .acceptFailures = n .backoffs ∨
          n .throttled + n .acceptFailures = n .backoffs + 1) ∧
        (s.orderly ms = true →
          (n .throttled + n .acceptFailures = n .backoffs + 1 ↔
            (e.waitsForRoom = true ∧
              ∃ event, e.holding? = some (.report event) ∧ event.isOk = false) ∨
            (e.loopEnded = true ∧ ∃ event, .report event ∈ lost ∧ event.isOk = false)))) := by
  intro s e calls n lost hlt
  have hbooks : Books s.endpoint e (s.history ms) lost :=
    s.books_after ms (Endpoint.sound_create role ipc config) (fun l hl => by cases hl)
  have hn (c : Counter) (hc : c ≠ .connects) (hf : c ≠ .failedConnects) :
      n c = c.increments (s.history ms) := by
    have hzero : s.endpoint.tally.get c = 0 := by cases c <;> rfl
    change (e.tally.get c).toNat = _
    rw [hbooks.tally c hc hf, hzero, UInt64.zero_add]
    exact UInt64.toNat_ofNat_of_lt' (hlt c)
  have haccepts : calls + 0 = Counter.accepted.increments (s.history ms) +
      Counter.acceptFailures.increments (s.history ms) +
        e.holding?.toList.countP Holding.isAccept + lost.countP Holding.isAccept := hbooks.accepts
  have hpauses : Counter.throttled.increments (s.history ms) +
      Counter.acceptFailures.increments (s.history ms) + 0 =
      Counter.backoffs.increments (s.history ms) +
        e.holding?.toList.countP Holding.isPause + lost.countP Holding.isPause := hbooks.pauses
  have haccepted := hn .accepted (by decide) (by decide)
  have hfailures := hn .acceptFailures (by decide) (by decide)
  have hthrottled := hn .throttled (by decide) (by decide)
  have hbackoffs := hn .backoffs (by decide) (by decide)
  rw [← haccepted, ← hfailures] at haccepts
  rw [← hthrottled, ← hfailures, ← hbackoffs] at hpauses
  refine ⟨haccepted.trans hbooks.sent, ?_⟩
  intro hw
  have hone : e.holding?.toList.length + lost.length ≤ 1 := hbooks.length_holding?_add_le
  have hended {x : Holding C} (hx : x ∈ lost) : e.loopEnded = true := hbooks.loopEnded_of_mem hx hw
  have haccept : .accept ∉ lost := fun hx => (s.mem_wasted ms hx).1 rfl
  obtain ⟨hle, hiff⟩ := countP_add_countP hone Holding.isAccept
  obtain ⟨hle', hiff'⟩ := countP_add_countP hone Holding.isPause
  rw [Endpoint.exists_isAccept_iff hw, Holding.exists_isAccept_iff haccept, or_assoc] at hiff
  refine ⟨by omega, ?_, by omega, ?_⟩
  · have hcount : calls = n .accepted + n .acceptFailures + 1 ↔
        e.holding?.toList.countP Holding.isAccept + lost.countP Holding.isAccept = 1 := by omega
    rw [hcount, hiff]
    refine or_congr_right (or_congr_right (and_iff_right_of_imp ?_).symm)
    rintro (⟨event, hx, -⟩ | ⟨outcome, hx⟩)
    · exact hended hx
    · exact hended hx
  · intro ho
    have hpause : .pause ∉ lost := by
      intro hx
      refine (s.mem_wasted ms hx).2 ?_ ho rfl
      intro hc
      cases hc
    rw [Endpoint.exists_isPause_iff hw, Holding.exists_isPause_iff hpause] at hiff'
    have hcount : n .throttled + n .acceptFailures = n .backoffs + 1 ↔
        e.holding?.toList.countP Holding.isPause + lost.countP Holding.isPause = 1 := by omega
    rw [hcount, hiff']
    refine or_congr_right (and_iff_right_of_imp ?_).symm
    rintro ⟨event, hx, -⟩
    exact hended hx

/-- An accept fails, the loop waits and begins another one, and a connection comes after the
    close. -/
def belated : List (Move Link) :=
  [.bind "a", .listen true 1 (.ok "a"), .takeReceiver, .work, .work, .work,
    .acceptEnds (.error (.io ⟨.addrInUse, "in use"⟩)), .work, .work, .work, .work, .work, .work,
    .delayEnds, .work, .work, .work, .work, .work, .close none, .acceptEnds (.ok ⟨0, none⟩), .work,
    .work]

theorem counters_conserve_accept_work_of_belated :
    let s : Scene Link := start .server false fixedBacklog
    let e := (s.after belated).endpoint
    (∀ c : Counter, c.increments (s.history belated) < UInt64.size) ∧
      e.waits = true ∧ s.orderly belated = true ∧ (e.tally.get .backoffs).toNat = 1 ∧
      (s.history belated).countP Occurrence.isAcceptCall =
        (e.tally.get .accepted).toNat + (e.tally.get .acceptFailures).toNat + 1 := by
  -- The numbers are compared as they stand, not evaluated.
  dsimp only
  have hlt : ∀ c : Counter,
      c.increments ((start .server false fixedBacklog).history belated) < UInt64.size := by
    intro c
    cases c <;> decide
  refine ⟨hlt, by decide, by decide, by decide, ?_⟩
  have hlaw := (counters_conserve_accept_work .server false fixedBacklog belated hlt).2 (by decide)
  have hlost : (start .server false fixedBacklog).wasted belated = [.outcome (.ok ⟨0, none⟩)] := rfl
  rw [hlost] at hlaw
  exact hlaw.2.1.mpr (.inr (.inr ⟨by decide, .inr ⟨_, List.mem_singleton_self _⟩⟩))

end Scene

end LocalEndpoint
