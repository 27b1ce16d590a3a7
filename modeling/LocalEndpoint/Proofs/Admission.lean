import LocalEndpoint.Proofs.Delivery

/-! Admission and the count of connections. The loop looks at the count once in a cycle and counts a
    connection much later; `Station.slack` tells, for each point of the loop, how far the count may
    be above the backlog there. Between the look and the count releases come in any number and
    order, but nobody else counts connections, so the slack is never exceeded (`Admitted`).

    The count itself is a ledger of arrivals and departures (`Scene.entries`), booked one by one
    (`Entry.book`). It saturates at the largest word, which matters only if that is the backlog. -/

namespace LocalEndpoint

/-- How far the count may be above the backlog: not at all from a cycle's look at it until the event
    of its accept is sent, else by one. -/
def Station.slack {C : Type} : Station C → Nat
  | .calling | .accepting | .settling _ | .offering _ _ | .reserving _ _ | .admitting _ _ => 0
  | _ => 1

theorem Station.slack_le_one {C : Type} (s : Station C) : s.slack ≤ 1 := by
  cases s <;> simp [slack]

theorem Station.slack_afterSending {C : Type} (retries : Bool) :
    (Station.afterSending retries : Station C).slack = 1 := by
  cases retries <;> rfl

/-- What makes the number of live connections change. -/
inductive Entry where
  /-- An OK event entered the channel. -/
  | arrival
  /-- A delivered connection was released. -/
  | departure
  deriving DecidableEq

namespace Entry

/-- One more, or one less if there is one. -/
def book (n : Nat) : Entry → Nat
  | .arrival => n + 1
  | .departure => n - 1

/-- The same where an arrival at the limit is lost. -/
def bookUpTo (limit n : Nat) : Entry → Nat
  | .arrival => min (n + 1) limit
  | .departure => n - 1

/-- As long as there are no more departures than arrivals, the floor does not matter. -/
theorem foldl_book (es : List Entry) (h : ∀ p, p <+: es → p.count .departure ≤ p.count .arrival) :
    es.foldl book 0 = es.count .arrival - es.count .departure := by
  induction es using List.reverseRecOn with
  | nil => rfl
  | append_singleton es x ih =>
    have hes := h es (List.prefix_append ..)
    have hall := h (es ++ [x]) List.prefix_rfl
    rw [List.foldl_append, ih fun p hp => h p (hp.trans (List.prefix_append ..))]
    cases x with
    | arrival => simp [book]; omega
    | departure => simp [book] at hall ⊢; omega

end Entry

/-- The arrival that an occurrence is. -/
def Occurrence.arrival? {C : Type} : Occurrence C → Option Entry
  | .sent event => if event.code = .ok then some .arrival else none
  | _ => none

/-- The entries of a move in which `os` occur. -/
def Move.entries {C : Type} (os : List (Occurrence C)) : Move C → List Entry
  | .release => [.departure]
  | _ => os.filterMap Occurrence.arrival?

theorem Move.entries_eq_nil {C : Type} {os : List (Occurrence C)} {m : Move C} (hm : m ≠ .release)
    (ho : ∀ o ∈ os, o.byLoop = false) : m.entries os = [] := by
  have hn : os.filterMap Occurrence.arrival? = [] :=
    List.filterMap_eq_nil_iff.mpr fun o h => by
      have hb := ho o h
      cases o <;> first | rfl | cases hb
  cases m with
  | release => exact absurd rfl hm
  | _ => exact hn

namespace Endpoint

variable {C : Type}

/-- The effective backlog of a call of `listen` that returns OK. -/
def granted (e : Endpoint C) : Move C → List Size
  | .listen inRuntime requested answer =>
    match (e.listen inRuntime requested answer).2.1 with
    | .ok .ok => [e.config.effectiveBacklog requested e.pendingInstances]
    | _ => []
  | _ => []

/-- What a successful `listen` granted is the loop's backlog, and the count is within it. -/
structure Admitted (e : Endpoint C) (backlogs : List Size) : Prop where
  fresh : e.loop = none → backlogs = []
  bounded : ∀ l ∈ e.loop,
    backlogs = [l.backlog] ∧ e.count.toNat ≤ l.backlog.toNat + l.station.slack

theorem granted_of_ne_ok {e : Endpoint C} {inRuntime : Bool} {requested : Size}
    {answer : Except Failure String} (h : (e.listen inRuntime requested answer).2.1 ≠ .ok .ok) :
    e.granted (.listen inRuntime requested answer) = [] := by
  rw [granted]
  split
  · next hr => exact absurd hr h
  · rfl

theorem granted_of_ok {e : Endpoint C} {inRuntime : Bool} {requested : Size}
    {answer : Except Failure String} (h : (e.listen inRuntime requested answer).2.1 = .ok .ok) :
    e.granted (.listen inRuntime requested answer) =
      [e.config.effectiveBacklog requested e.pendingInstances] := by
  rw [granted, h]

/-- Only a `listen` is granted anything. -/
theorem granted_eq_nil {e : Endpoint C} {m : Move C}
    (hm : m.aside = true ∨ m.receives = true) : e.granted m = [] := by
  cases m with
  | listen => rcases hm with hm | hm <;> cases hm
  | _ => rfl

/-- Without a loop, and once closed, nobody is counted. -/
theorem Sound.count_eq_zero {e : Endpoint C} (h : e.Sound)
    (hn : e.loop = none ∨ e.isClosed = true) : e.count = 0 := by
  have hl : e.state.isListening = false := by
    rcases hn with hn | hc
    · cases hc : e.isClosed with
      | true => exact isListening_of_isClosed hc
      | false => rw [← h.loop hc, hn]; rfl
    · exact isListening_of_isClosed hc
  rw [count, (h.vacant hl).1]

namespace Admitted

variable {e f : Endpoint C} {l : AcceptLoop C} {backlogs : List Size}

/-- The loop stays where it is, and the count does not grow. -/
theorem keep (h : e.Admitted backlogs) (hl : f.loop = e.loop)
    (hc : f.count.toNat ≤ e.count.toNat) : f.Admitted backlogs := by
  refine ⟨hl ▸ h.fresh, fun l hm => ?_⟩
  obtain ⟨hb, hle⟩ := h.bounded l (hl ▸ hm)
  exact ⟨hb, Nat.le_trans hc hle⟩

/-- The loop goes on to a station that has the slack for the count. -/
theorem goOn {s : Station C} (h : e.Admitted backlogs) (hl : e.loop = some l)
    (hf : f.loop = some { l with station := s })
    (hc : f.count.toNat ≤ l.backlog.toNat + s.slack) : f.Admitted backlogs := by
  refine ⟨fun hn => ?_, fun m hm => ?_⟩
  · rw [hf] at hn; cases hn
  · rw [hf] at hm; cases hm
    exact ⟨(h.bounded l hl).1, hc⟩

/-- The same where the count stays what it was and the slack does not shrink. -/
theorem pass {s s' : Station C} (h : e.Admitted backlogs) (hl : e.loop = some l)
    (hs : l.station = s) (hf : f.loop = some { l with station := s' }) (hc : f.count = e.count)
    (hle : s.slack ≤ s'.slack) : f.Admitted backlogs := by
  refine h.goOn hl hf ?_
  have hb := (h.bounded l hl).2
  rw [hs] at hb
  rw [hc]
  omega

/-- The loop does a piece of its work. -/
theorem piece [Located C] (h : e.Admitted backlogs) (hl : e.loop = some l) {s : Station C}
    (hs : l.station = s) {os : List (Occurrence C)} (hp : Piece e l s f os) :
    f.Admitted backlogs := by
  cases hp with
  | await | rest => exact h
  -- The look at the count is what takes the slack away, and the count of a connection uses it.
  | cycle _ hx =>
    have hle : e.count ≤ l.backlog := by simpa [Occupancy.exceeds, count] using hx
    exact h.goOn hl rfl (UInt64.le_iff_toNat_le.mp hle)
  | enter =>
    refine h.goOn hl rfl ?_
    have hb := (h.bounded l hl).2
    rw [hs, Station.slack] at hb
    have hup := Size.toNat_up e.count
    rw [Station.slack_afterSending]
    change (Size.up e.count).toNat ≤ _
    omega
  | leave | discard => exact h.pass hl hs rfl rfl s.slack_le_one
  | _ => exact h.pass hl hs rfl rfl (by simp [Station.slack])

/-- Nobody is counted before a `listen` succeeds, and one more than its backlog at most from then
    on. -/
theorem count_le (h : e.Admitted backlogs) (hs : e.Sound) :
    backlogs = [] ∧ e.count = 0 ∨ ∃ b, backlogs = [b] ∧ e.count.toNat ≤ b.toNat + 1 := by
  cases hl : e.loop with
  | none => exact .inl ⟨h.fresh hl, hs.count_eq_zero (.inl hl)⟩
  | some l =>
    obtain ⟨hb, hle⟩ := h.bounded l hl
    exact .inr ⟨l.backlog, hb, Nat.le_trans hle (Nat.add_le_add_left l.station.slack_le_one _)⟩

end Admitted

/-- Every move keeps the count within the backlog, with the slack of the loop's station. -/
theorem Change.admitted [Located C] {e f : Endpoint C} {m : Move C} {os : List (Occurrence C)}
    {backlogs : List Size} (hc : Change e m f os) (hs : e.Sound) (h : e.Admitted backlogs) :
    f.Admitted (backlogs ++ e.granted m) := by
  have hq (hg : e.granted m = []) (hf : f.Admitted backlogs) :
      f.Admitted (backlogs ++ e.granted m) := by rwa [hg, List.append_nil]
  cases hc with
  | aside hm hb =>
    have hcount : f.count = e.count := by rw [count, hb.occupancy, count]
    exact hq (granted_eq_nil (.inl hm)) (h.keep hb.loop (Nat.le_of_eq (by rw [hcount])))
  | receiving hm => exact hq (granted_eq_nil (.inr hm)) (h.keep rfl (Nat.le_refl _))
  | refusal hr => exact hq (granted_of_ne_ok hr) h
  | opening hr hc hl =>
    have hn : e.loop = none := by simpa [hl] using hs.loop hc
    have hz := hs.count_eq_zero (.inl hn)
    refine ⟨nofun, fun l hm => ?_⟩
    cases hm
    refine ⟨by simp [h.fresh hn, granted, hr], ?_⟩
    change e.count.toNat ≤ _
    simp [hz]
  | release =>
    refine hq rfl (h.keep rfl ?_)
    change (Size.down e.count).toNat ≤ _
    rw [Size.toNat_down]
    exact Nat.sub_le ..
  | closing => exact hq rfl (h.keep rfl (Nat.zero_le _))
  | piece hl hs hp => exact hq rfl (h.piece hl hs hp)
  | answered hl hs | rung hl hs => exact hq rfl (h.pass hl hs rfl rfl (Nat.le_refl _))
  | _ => exact hq rfl h

/-! ### The ledger -/

/-- How the count of `f` follows from that of `e` when these entries are made. -/
inductive Counted (e f : Endpoint C) : List Entry → Prop
  | same (h : f.count = e.count) : Counted e f []
  | left (h : f.count = Size.down e.count) : Counted e f [.departure]
  | entered {l} (hl : e.loop = some l) (hs : l.station.slack = 0)
      (h : f.count = Size.up e.count) : Counted e f [.arrival]

/-- The loop counts exactly the OK events, if those are the ones with a connection. -/
theorem Piece.counted [Located C] {e f : Endpoint C} {l : AcceptLoop C} {s : Station C}
    {os : List (Occurrence C)} (hl : e.loop = some l) (hs : l.station = s) (hp : Piece e l s f os)
    (hev : ∀ event, s.event? = some event → (event.code = .ok ↔ event.handle.isSome = true)) :
    Counted e f (os.filterMap Occurrence.arrival?) := by
  cases hp with
  | @enter event _ _ hh =>
    have hok : event.code = .ok := (hev event rfl).mpr hh
    simp only [List.filterMap_cons, Occurrence.arrival?, hok, if_true, List.filterMap_nil]
    exact .entered hl (by rw [hs]; rfl) rfl
  | @send event _ _ hh =>
    have hok : event.code ≠ .ok := fun hok => by simp [(hev event rfl).mp hok] at hh
    simp only [List.filterMap_cons, Occurrence.arrival?, if_neg hok, List.filterMap_nil]
    exact .same rfl
  | _ => exact .same rfl

/-- Until the close every change of the count has its entry. -/
theorem Change.counted [Located C] {e f : Endpoint C} {m : Move C} {os : List (Occurrence C)}
    (hc : Change e m f os) (ho : f.isClosed = false)
    (hev : ∀ l ∈ e.loop, ∀ event, l.station.event? = some event →
      (event.code = .ok ↔ event.handle.isSome = true)) :
    Counted e f (m.entries os) := by
  have hq (hm : m ≠ .release) (hos : ∀ o ∈ os, o.byLoop = false) (hf : f.count = e.count) :
      Counted e f (m.entries os) := by
    rw [Move.entries_eq_nil hm hos]
    exact .same hf
  cases hc with
  | aside hm hb hos =>
    refine hq (by rintro rfl; cases hm) (fun o h => (Occurrence.not_onAcceptPath (hos o h)).1) ?_
    rw [count, hb.occupancy, count]
  | receiving hm hos => exact hq (by rintro rfl; cases hm) hos rfl
  | refusal _ hos | opening _ _ _ hos =>
    exact hq nofun (fun o h => (Occurrence.not_onAcceptPath (hos o h)).1) rfl
  | closing => cases ho
  | release => exact .left rfl
  | piece hl hs hp => exact hp.counted hl hs (hs ▸ hev _ hl)
  | _ => exact .same rfl

theorem Counted.toNat_eq {e f : Endpoint C} {es : List Entry} (h : Counted e f es) :
    f.count.toNat = es.foldl (Entry.bookUpTo Size.top.toNat) e.count.toNat := by
  cases h with
  | same h => rw [h]; rfl
  | left h => rw [h, Size.toNat_down]; rfl
  | entered _ _ h => rw [h, Size.toNat_up]; rfl

/-- No arrival is lost below the largest backlog: there was room at the last look. -/
theorem Counted.toNat_eq_of_ne_top {e f : Endpoint C} {es : List Entry} {backlogs : List Size}
    (h : Counted e f es) (ha : e.Admitted backlogs) (ht : Size.top ∉ backlogs) :
    f.count.toNat = es.foldl Entry.book e.count.toNat := by
  cases h with
  | same h => rw [h]; rfl
  | left h => rw [h, Size.toNat_down]; rfl
  | @entered l hl hs h =>
    obtain ⟨hb, hle⟩ := ha.bounded l hl
    have hne : l.backlog.toNat ≠ Size.top.toNat := fun he => ht (by
      rw [hb, UInt64.toNat_inj.mp he]; exact List.mem_singleton_self _)
    have hlt := l.backlog.toNat_lt
    rw [Size.toNat_top, UInt64.size] at hne
    rw [h, Size.toNat_up, List.foldl_cons, List.foldl_nil, Entry.book, UInt64.size]
    omega

/-- An accept begins only from a cycle that has looked at the count. -/
theorem Change.count_of_acceptCalled [Located C] {e f : Endpoint C} {m : Move C}
    {os : List (Occurrence C)} (hc : Change e m f os) (h : .acceptCalled ∈ os) :
    f.count = e.count ∧ ∃ l ∈ e.loop, l.station.slack = 0 := by
  cases hc with
  | aside _ _ ho | refusal _ ho | opening _ _ _ ho | closing _ ho =>
    exact absurd (ho _ h) (by simp [Occurrence.onAcceptPath])
  | receiving _ ho => exact absurd (ho _ h) (by simp)
  | @piece l _ _ _ hl hs hp =>
    cases hp with
    | call => exact ⟨rfl, l, hl, by rw [hs]; rfl⟩
    | _ => simp at h
  | _ => cases h

end Endpoint

namespace Scene

variable {C : Type} [Located C]

open Endpoint (Admitted)

/-- The entries of a move. -/
def entries (s : Scene C) (m : Move C) : List Entry := m.entries (s.step m).2

/-- The effective backlogs of the calls of `listen` that return OK in a run. -/
def backlogs (s : Scene C) (ms : List (Move C)) : List Size :=
  gather next (fun s m => s.endpoint.granted m) s ms

/-- The entries of a run, in order. -/
def ledger (s : Scene C) (ms : List (Move C)) : List Entry := gather next entries s ms

/-- The event in hand is OK exactly if it brings a connection. -/
theorem code_eq_ok_iff_of_event? (role : Role) (ipc : Bool) (config : Config) (ms : List (Move C)) :
    ∀ l ∈ ((start role ipc config).after ms).endpoint.loop, ∀ event,
      l.station.event? = some event → (event.code = .ok ↔ event.handle.isSome = true) := by
  intro l hl event he
  have ha := (delivered_after role ipc config ms).inHand l hl
  obtain ⟨o, -, rfl⟩ := List.mem_map.mp (ha.mem_of_event? he)
  exact Event.reporting_code_eq_ok_iff _ o

theorem admitted_after (role : Role) (ipc : Bool) (config : Config) (ms : List (Move C)) :
    ((start role ipc config).after ms).endpoint.Admitted
      ((start role ipc config).backlogs ms) := by
  induction ms using List.reverseRecOn with
  | nil => exact ⟨fun _ => rfl, fun l hl => by cases hl⟩
  | append_singleton ms m ih =>
    rw [Runs.concat after, backlogs, gather_concat after]
    exact ((((start role ipc config).after ms).change_step m).admitted
      (sound_after role ipc config ms) ih)

/-- Until the close the count follows the ledger. -/
theorem count_after (role : Role) (ipc : Bool) (config : Config) (ms : List (Move C)) :
    let s := start role ipc config
    let e := (s.after ms).endpoint
    e.isClosed = false →
      e.count.toNat = (s.ledger ms).foldl (Entry.bookUpTo Size.top.toNat) 0 ∧
      (Size.top ∉ s.backlogs ms → e.count.toNat = (s.ledger ms).foldl Entry.book 0) := by
  intro s e ho
  induction ms using List.reverseRecOn with
  | nil => exact ⟨rfl, fun _ => rfl⟩
  | append_singleton ms m ih =>
    have hc := (s.after ms).change_step m
    have ho' : (s.after ms).endpoint.isClosed = false :=
      s.isClosed_earlier (List.prefix_append ..) ho
    obtain ⟨hcap, hexact⟩ := ih ho'
    have hstep :=
      hc.counted (by rwa [← Runs.concat after]) (code_eq_ok_iff_of_event? role ipc config ms)
    have ha : Admitted _ _ := admitted_after role ipc config ms
    simp only [e, Runs.concat after, ledger, backlogs, gather_concat after, List.foldl_append]
    refine ⟨by rw [hstep.toNat_eq, hcap]; rfl, fun ht => ?_⟩
    have ht' : Size.top ∉ s.backlogs ms := fun hm => ht (List.mem_append_left _ hm)
    rw [hstep.toNat_eq_of_ne_top ha ht', hexact ht']
    rfl

/-- Admission and the count of connections. Whatever callers, provider, consumer and loop do, at
    most one `listen` succeeds; nobody is counted before, and the count is never more than one above
    the backlog `b` that it granted. An accept begins only while the count is at most `b`. Until the
    close the count is the ledger, booked in order, where an arrival can be lost only if `b` is the
    largest word; while there are no more departures than arrivals it is their difference. -/
theorem admission (role : Role) (ipc : Bool) (config : Config) (ms : List (Move C)) :
    let s := start role ipc config
    let e := (s.after ms).endpoint
    let ledger := s.ledger ms
    (s.backlogs ms = [] ∧ e.count = 0 ∨
      ∃ b, s.backlogs ms = [b] ∧ e.count.toNat ≤ b.toNat + 1) ∧
    (∀ m, .acceptCalled ∈ ((s.after ms).step m).2 →
      ∃ b, s.backlogs ms = [b] ∧ e.count ≤ b ∧ (s.after (ms ++ [m])).endpoint.count ≤ b) ∧
    (e.isClosed = false →
      e.count.toNat = ledger.foldl (Entry.bookUpTo Size.top.toNat) 0 ∧
      (Size.top ∉ s.backlogs ms →
        e.count.toNat = ledger.foldl Entry.book 0 ∧
        ((∀ p, p <+: ledger → p.count .departure ≤ p.count .arrival) →
          e.count.toNat = ledger.count .arrival - ledger.count .departure))) := by
  intro s e ledger
  have ha : e.Admitted (s.backlogs ms) := admitted_after role ipc config ms
  refine ⟨?_, fun m hm => ?_, fun ho => ?_⟩
  · cases hl : e.loop with
    | none =>
      have hs : e.Sound := sound_after role ipc config ms
      exact .inl ⟨ha.fresh hl, hs.count_eq_zero (.inl hl)⟩
    | some l =>
      obtain ⟨hb, hle⟩ := ha.bounded l hl
      exact .inr ⟨l.backlog, hb, Nat.le_trans hle (Nat.add_le_add_left l.station.slack_le_one _)⟩
  · obtain ⟨hsame, l, hl, hslack⟩ := ((s.after ms).change_step m).count_of_acceptCalled hm
    obtain ⟨hb, hle⟩ := ha.bounded l hl
    rw [hslack] at hle
    have hle' : e.count ≤ l.backlog := UInt64.le_iff_toNat_le.mpr hle
    refine ⟨l.backlog, hb, hle', ?_⟩
    rw [Runs.concat after, hsame]
    exact hle'
  · obtain ⟨hcap, hexact⟩ := count_after role ipc config ms ho
    refine ⟨hcap, fun ht => ⟨hexact ht, fun hp => ?_⟩⟩
    rw [hexact ht, Entry.foldl_book _ hp]

end Scene

end LocalEndpoint
