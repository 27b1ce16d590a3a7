import LocalEndpoint.Proofs.Scene.Change
import LocalEndpoint.Rehearsal.Basic
import Mathlib.Data.List.Induction
import Mathlib.Data.List.Perm.Basic

/-! Connecting. A connect called on a closed endpoint is refused without a question; for any other
    the provider is asked, and the connect is under way until the provider answers. What a connect
    came to (`Ending`) is read off the moves, the connects under way and whether the endpoint is
    closed, never off what the endpoint tells; the theory compares the two.

        called ─▶ refused                                   closed when called
          └─▶ under way ─▶ failed                           the provider fails
                  ├─▶ aborted                               closed when the connection comes
                  └─▶ attached ─▶ taken, replaced, or gone with the close

    None is lost and none is told of twice: the connects called on an open endpoint are those that
    have ended and those under way, in some order (`Reckoned`). -/

namespace LocalEndpoint

/-- What a connect came to. -/
inductive Ending (C : Type) where
  /-- The endpoint was closed when it was called. -/
  | refused
  /-- The provider failed. -/
  | failed (failure : Failure)
  /-- The provider's connection came after the close. -/
  | aborted (connection : C)
  /-- The provider's connection came to an open endpoint. -/
  | attached (connection : C)

theorem Code.forConnect_cases (f : Failure) :
    forConnect f = .noEntry ∨ forConnect f = .accessDenied ∨ forConnect f = .connectionRefused := by
  unfold forConnect
  split <;> simp

namespace Ending

variable {C : Type}

/-- The code that tells of it. -/
def code : Ending C → Code
  | .refused => .invalidArgument
  | .failed f => Code.forConnect f
  | .aborted _ => .connectionAborted
  | .attached _ => .ok

def isRefused : Ending C → Bool
  | .refused => true
  | _ => false

def isFailed : Ending C → Bool
  | .failed _ => true
  | _ => false

def isAborted : Ending C → Bool
  | .aborted _ => true
  | _ => false

def isAttached : Ending C → Bool
  | .attached _ => true
  | _ => false

/-- What a connect comes to when the provider answers it. -/
def ofAnswer (closed : Bool) : Except Failure C → Ending C
  | .error f => .failed f
  | .ok c => if closed then .aborted c else .attached c

theorem isRefused_ofAnswer (closed : Bool) (outcome : Except Failure C) :
    (ofAnswer closed outcome).isRefused = false := by
  cases outcome with
  | error f => rfl
  | ok c => cases closed <;> rfl

/-- Which of the four it was can be told from the code. -/
theorem code_iff (x : Ending C) :
    (x.code = .invalidArgument ↔ x.isRefused = true) ∧
      (x.code = .connectionAborted ↔ x.isAborted = true) ∧
      (x.code = .ok ↔ x.isAttached = true) := by
  cases x with
  | failed f =>
    rcases Code.forConnect_cases f with h | h | h <;>
      simp [code, h, isRefused, isAborted, isAttached]
  | refused | aborted | attached => simp [code, isRefused, isAborted, isAttached]

end Ending

namespace Occurrence

variable {C : Type}

/-- Whether it happens for a connect. -/
@[simp] def forConnect : Occurrence C → Bool
  | .connectCalled _ | .connectFailed .. | .connectAborted | .connected _ | .reported .. => true
  | _ => false

/-- The address that the provider is asked to connect to. -/
@[simp] def dialed? : Occurrence C → Option String
  | .connectCalled address => some address
  | _ => none

/-- The token and the code with which a callback of a connect is called. -/
@[simp] def reported? : Occurrence C → Option (Nat × Code)
  | .reported token code => some (token, code)
  | _ => none

/-- Whether a callback's panic is discarded. -/
@[simp] def isPanic : Occurrence C → Bool
  | .panicked .. => true
  | _ => false

theorem calm_of_byLoop {o : Occurrence C} (h : o.byLoop = true) :
    o.forConnect = false ∧ o.isPanic = false := by
  cases o <;> simp at h ⊢

end Occurrence

namespace Move

variable {C : Type}

/-- Whether it is a step of a connect. -/
def ofConnect : Move C → Bool
  | .connect .. | .connectEnds .. => true
  | _ => false

/-- Whether it may call a callback. -/
def callsBack : Move C → Bool
  | .connect .. | .connectEnds .. | .poll _ => true
  | _ => false

/-- The same move with callbacks that do not panic. -/
def calm : Move C → Move C
  | .connect a _ => .connect a none
  | .connectEnds i outcome _ => .connectEnds i outcome none
  | .poll (.dispatcher _) => .poll (.dispatcher none)
  | m => m

end Move

namespace Endpoint

variable {C : Type}

theorem calm_listen (e : Endpoint C) (inRuntime : Bool) (requested : Size)
    (answer : Except Failure String) :
    ∀ o ∈ (e.listen inRuntime requested answer).2.2, o.forConnect = false ∧ o.isPanic = false := by
  rw [listen]
  cases e.listenTarget inRuntime requested with
  | error r => cases r <;> simp
  | ok target =>
    cases answer with
    | ok resolved => simp
    | error f => cases hv : Code.forListen f <;> simp [hv]

/-- As many connects have been counted in `f` as in `e`. -/
structure SameConnects (e f : Endpoint C) : Prop where
  connects : f.tally.get .connects = e.tally.get .connects
  failedConnects : f.tally.get .failedConnects = e.tally.get .failedConnects

theorem SameConnects.bump {e f : Endpoint C} (c : Counter) (hc : c ≠ .connects)
    (hf : c ≠ .failedConnects) (ht : f.tally = (e.bump c).tally) : SameConnects e f := by
  refine ⟨?_, ?_⟩
  · rw [ht]
    exact (Tally.get_bump ..).trans (if_neg hc)
  · rw [ht]
    exact (Tally.get_bump ..).trans (if_neg hf)

variable [Located C]

theorem Piece.sameConnects {e f : Endpoint C} {l : AcceptLoop C} {s : Station C}
    {os : List (Occurrence C)} (h : Piece e l s f os) : SameConnects e f := by
  cases h with
  | throttle => exact .bump .throttled (by decide) (by decide) rfl
  | fail => exact .bump .acceptFailures (by decide) (by decide) rfl
  | enter => exact .bump .accepted (by decide) (by decide) rfl
  | count => exact .bump .backoffs (by decide) (by decide) rfl
  | _ => exact ⟨rfl, rfl⟩

/-- Apart from naming and connecting, nothing counts connects. -/
theorem Change.sameConnects {e f : Endpoint C} {m : Move C} {os : List (Occurrence C)}
    (h : Change e m f os) (ha : m.aside = false) : SameConnects e f := by
  cases h with
  | aside hm => rw [ha] at hm; cases hm
  | piece _ _ hp => exact hp.sameConnects
  | _ => exact ⟨rfl, rfl⟩

/-- Apart from naming and connecting, only a close touches the attached connection. -/
theorem Change.connection_eq {e f : Endpoint C} {m : Move C} {os : List (Occurrence C)}
    (h : Change e m f os) (ha : m.aside = false) (hc : ∀ answer, m ≠ .close answer) :
    f.connection = e.connection := by
  cases h with
  | aside hm => rw [ha] at hm; cases hm
  | closing => exact absurd rfl (hc _)
  | piece _ _ hp => cases hp <;> rfl
  | _ => rfl

/-- What comes to an open endpoint is counted, and so is what fails. -/
theorem tally_finishConnect (e : Endpoint C) (a : Attempt) (outcome : Except Failure C) :
    let x := Ending.ofAnswer e.isClosed outcome
    (e.finishConnect a outcome).1.tally.get .connects =
        e.tally.get .connects + UInt64.ofNat (if x.isAttached then 1 else 0) ∧
      (e.finishConnect a outcome).1.tally.get .failedConnects =
        e.tally.get .failedConnects + UInt64.ofNat (if x.isFailed then 1 else 0) := by
  cases outcome with
  | error f =>
    simp [finishConnect, bump, Tally.get_bump, Ending.ofAnswer, Ending.isAttached, Ending.isFailed]
  | ok c =>
    cases hc : e.isClosed <;>
      simp [finishConnect, attach, hc, Tally.get_bump, Ending.ofAnswer, Ending.isAttached,
        Ending.isFailed]

end Endpoint

namespace Scene

variable {C : Type}

/-! ### What connects come to -/

/-- The connect for which the provider is asked in a move. -/
def asks (s : Scene C) : Move C → List Endpoint.Attempt
  | .connect a _ => if s.endpoint.isClosed then [] else [a]
  | _ => []

/-- The connect that is called in a move on a closed endpoint. -/
def turnsAway (s : Scene C) : Move C → List Endpoint.Attempt
  | .connect a _ => if s.endpoint.isClosed then [a] else []
  | _ => []

/-- The connect that ends in a move, and what it came to. -/
def endings (s : Scene C) : Move C → List (Endpoint.Attempt × Ending C)
  | .connect a _ => if s.endpoint.isClosed then [(a, .refused)] else []
  | .connectEnds i outcome _ =>
    (s.underWay[i]?).toList.map fun a => (a, .ofAnswer s.endpoint.isClosed outcome)
  | _ => []

variable [Located C]

/-- What a move leaves in the place for the attached connection, if it touches it: the connection of
    a connect that ends well, or nothing once it is taken or the endpoint closed. -/
def places (s : Scene C) (m : Move C) : List (Option (Handle C)) :=
  match m with
  | .takeConnection | .close _ => [none]
  | m => (s.endings m).filterMap fun p =>
    match p.2 with
    | .attached c => some (some (.wrap s.endpoint.role c))
    | _ => none

/-! ### One move -/

theorem underWay_next (s : Scene C) {m : Move C} (hm : m.ofConnect = false) :
    (s.next m).underWay = s.underWay := by
  cases m with
  | connect | connectEnds => cases hm
  | poll reader =>
    rw [next, step, poll]
    split
    · simp only
      split <;> rfl
    · rfl
  | _ => rfl

theorem sameConnects_next (s : Scene C) {m : Move C} (hm : m.ofConnect = false) :
    s.endpoint.SameConnects (s.next m).endpoint := by
  cases ha : m.aside with
  | false => exact (s.change_step m).sameConnects ha
  | true =>
    cases m with
    | bind name =>
      simp only [next, step, put, Endpoint.bind]
      split <;> exact ⟨rfl, rfl⟩
    | setPendingInstances | fchmod | ref | unref | takeConnection => exact ⟨rfl, rfl⟩
    | connect | connectEnds => cases hm
    | _ => cases ha

omit [Located C] in
theorem forConnect_handling (event : Event C) (reader : Reader) :
    ∀ o ∈ handling event reader, o.forConnect = false := by
  cases reader with
  | direct | stream => simp [handling]
  | dispatcher panics => cases panics <;> simp [handling, panicOf]

/-- A move that calls no callback shows nothing of connects, and no panic. -/
theorem calm_step (s : Scene C) {m : Move C} (hm : m.callsBack = false) :
    ∀ o ∈ (s.step m).2, o.forConnect = false ∧ o.isPanic = false := by
  cases m with
  | connect | connectEnds | poll => cases hm
  | listen inRuntime requested answer => exact s.endpoint.calm_listen inRuntime requested answer
  | fchmod bits answer =>
    simp only [step, put, Endpoint.fchmod]
    cases s.endpoint.chmodTarget? bits <;> cases answer <;> simp
  | ref => cases hl : s.endpoint.holdsListener <;> simp [step, put, Endpoint.ref, hl]
  | unref => cases hl : s.endpoint.holdsListener <;> simp [step, put, Endpoint.unref, hl]
  | close answer =>
    simp only [step, put, Endpoint.close]
    split
    · exact List.forall_mem_nil _
    · split
      · split <;> simp
      · simp
  | work =>
    have hc := s.change_step .work
    generalize (s.next .work).endpoint = f, (s.step .work).2 = os at hc
    cases hc with
    | piece _ _ hp => exact fun o ho => Occurrence.calm_of_byLoop (hp.byLoop o ho)
    | noLoop => exact List.forall_mem_nil _
    | aside hm => cases hm
    | receiving hm => cases hm
  | _ => exact List.forall_mem_nil _

theorem forConnect_step (s : Scene C) {m : Move C} (hm : m.ofConnect = false) :
    ∀ o ∈ (s.step m).2, o.forConnect = false := by
  cases hb : m.callsBack with
  | false =>
    intro o ho
    exact (s.calm_step hb o ho).1
  | true =>
    cases m with
    | connect | connectEnds => cases hm
    | poll reader =>
      rw [step]
      have hpoll := s.polled_poll reader
      generalize (s.poll reader).1.endpoint = e, (s.poll reader).2 = os at hpoll
      cases hpoll with
      | nothing => exact List.forall_mem_nil _
      | ended ho =>
        intro o hm
        rw [ho o hm]
        rfl
      | event =>
        intro o ho
        rcases List.mem_cons.mp ho with rfl | ho
        · rfl
        · exact forConnect_handling _ reader o ho
    | _ => cases hb

/-- What a move shows of connects. -/
def told (s : Scene C) : Move C → List (Occurrence C)
  | .connect a _ => s.endpoint.beginConnect a
  | .connectEnds i outcome _ =>
    (s.underWay[i]?).toList.flatMap fun a => (s.endpoint.finishConnect a outcome).2
  | _ => []

/-- Whoever looks only at connects sees what is told of them. -/
theorem filterMap_step {β : Type} (s : Scene C) (m : Move C) {g : Occurrence C → Option β}
    (hg : ∀ o, o.forConnect = false → g o = none) :
    (s.step m).2.filterMap g = (s.told m).filterMap g := by
  have hpanic (panics : Option Payload) :
      (panicOf .afterConnect panics).filterMap g = [] :=
    filterMap_panicOf .afterConnect panics fun _ => hg _ rfl
  cases hm : m.ofConnect with
  | false =>
    have hnone : (s.step m).2.filterMap g = [] := by
      rw [List.filterMap_eq_nil_iff]
      intro o ho
      exact hg o (s.forConnect_step hm o ho)
    rw [hnone]
    cases m <;> first | rfl | cases hm
  | true =>
    cases m with
    | connect a panics =>
      rw [step, connect, told]
      split
      · rw [List.filterMap_append, hpanic, List.append_nil]
      · rfl
    | connectEnds i outcome panics =>
      rw [step, connectEnds, told]
      cases s.underWay[i]? with
      | none => rfl
      | some a => simp [List.filterMap_append, hpanic]
    | _ => cases hm

/-- Each connect that ends is told of once, with its token and the code of what it came to. -/
theorem reported_step (s : Scene C) (m : Move C) :
    (s.step m).2.filterMap Occurrence.reported? =
      (s.endings m).map fun p => (p.1.token, p.2.code) := by
  rw [s.filterMap_step m fun o ho => by cases o <;> first | rfl | cases ho]
  cases m with
  | connect a panics =>
    rw [told, endings, Endpoint.beginConnect]
    split <;> rfl
  | connectEnds i outcome panics =>
    rw [told, endings]
    cases s.underWay[i]? with
    | none => rfl
    | some a =>
      cases outcome with
      | error f => rfl
      | ok c =>
        simp only [Endpoint.finishConnect, Ending.ofAnswer]
        split <;> rfl
  | _ => rfl

/-- The provider is asked for each connect that is not turned away, and for nothing else. -/
theorem dialed_step (s : Scene C) (m : Move C) :
    (s.step m).2.filterMap Occurrence.dialed? = (s.asks m).map (·.address) := by
  rw [s.filterMap_step m fun o ho => by cases o <;> first | rfl | cases ho]
  cases m with
  | connect a panics =>
    rw [told, asks, Endpoint.beginConnect]
    split <;> rfl
  | connectEnds i outcome panics =>
    rw [told]
    cases s.underWay[i]? with
    | none => rfl
    | some a =>
      cases outcome with
      | error f => rfl
      | ok c =>
        simp only [Endpoint.finishConnect]
        split <;> rfl
  | _ => rfl

/-- What a move leaves in the place for the attached connection is the last thing put there. -/
theorem connection_next (s : Scene C) (m : Move C) (hs : s.endpoint.Sound) :
    (s.next m).endpoint.connection = (s.places m).getLast?.getD s.endpoint.connection := by
  by_cases hc : ∃ answer, m = .close answer
  · obtain ⟨answer, rfl⟩ := hc
    simp only [next, step, put, Endpoint.close_fst]
    split
    · next hclosed => exact (hs.closed hclosed).2
    · rfl
  cases ha : m.aside with
  | false =>
    rw [(s.change_step m).connection_eq ha fun answer he => hc ⟨answer, he⟩]
    cases m with
    | close answer => exact absurd ⟨answer, rfl⟩ hc
    | _ => first | rfl | cases ha
  | true =>
    cases m with
    | bind name =>
      simp only [next, step, put, Endpoint.bind]
      split <;> rfl
    | connect a panics =>
      simp only [next, step, connect, places, endings]
      split <;> rfl
    | connectEnds i outcome panics =>
      simp only [next, step, connectEnds, places, endings]
      cases s.underWay[i]? with
      | none => rfl
      | some a =>
        cases outcome with
        | error f => rfl
        | ok c =>
          simp only [Endpoint.finishConnect, Ending.ofAnswer]
          split <;> rfl
    | setPendingInstances | fchmod | ref | unref | takeConnection => rfl
    | _ => cases ha

/-- A connect that does not end well changes nothing but the counters. -/
theorem endpoint_next_of_ending (s : Scene C) {m : Move C} {a : Endpoint.Attempt} {x : Ending C}
    (h : (a, x) ∈ s.endings m) (hx : x.code ≠ .ok) :
    (s.next m).endpoint = { s.endpoint with tally := (s.next m).endpoint.tally } := by
  cases m with
  | connect b panics =>
    rw [next, step, connect]
    split <;> rfl
  | connectEnds i outcome panics =>
    simp only [endings, Option.mem_toList, List.mem_map, Prod.mk.injEq] at h
    obtain ⟨b, hb, -, rfl⟩ := h
    rw [next, step, connectEnds, hb]
    cases outcome with
    | error f => rfl
    | ok c =>
      simp only [Endpoint.finishConnect]
      split
      · rfl
      · next hc => simp [Ending.ofAnswer, Ending.code, hc] at hx
  | _ => cases h

/-- A connect that ends well leaves its connection attached. -/
theorem connection_next_of_attached (s : Scene C) {m : Move C} {a : Endpoint.Attempt} {c : C}
    (hs : s.endpoint.Sound) (h : (a, .attached c) ∈ s.endings m) :
    (s.next m).endpoint.connection = some (.wrap s.endpoint.role c) := by
  rw [s.connection_next m hs]
  cases m with
  | connect b panics =>
    simp only [endings] at h
    split at h <;> simp at h
  | connectEnds i outcome panics =>
    simp only [endings, Option.mem_toList, List.mem_map, Prod.mk.injEq] at h
    obtain ⟨b, hb, -, hx⟩ := h
    simp [places, endings, hb, hx]
  | _ => cases h

/-! ### Runs -/

/-- The connects that the provider has been asked for are those that have ended and those under way,
    and the endpoint has counted those that ended well or with a failure. -/
structure Reckoned (t : Scene C) (asked : List Endpoint.Attempt)
    (ended : List (Endpoint.Attempt × Ending C)) : Prop where
  accounted : asked.Perm ((ended.filter (!·.2.isRefused)).map Prod.fst ++ t.underWay)
  connects : t.endpoint.tally.get .connects = UInt64.ofNat (ended.countP (·.2.isAttached))
  failedConnects :
    t.endpoint.tally.get .failedConnects = UInt64.ofNat (ended.countP (·.2.isFailed))

omit [Located C] in
theorem Reckoned.perm_of_answer {s : Scene C} {asked : List Endpoint.Attempt}
    {ended : List (Endpoint.Attempt × Ending C)} (h : s.Reckoned asked ended) {i : Nat}
    {a : Endpoint.Attempt} (hi : s.underWay[i]? = some a) (outcome : Except Failure C) :
    asked.Perm (((ended ++ [(a, Ending.ofAnswer s.endpoint.isClosed outcome)]).filter
      (!·.2.isRefused)).map Prod.fst ++ s.underWay.eraseIdx i) := by
  obtain ⟨hlt, rfl⟩ := List.getElem?_eq_some_iff.mp hi
  have hperm : s.underWay.Perm (s.underWay[i] :: s.underWay.eraseIdx i) :=
    (List.getElem_cons_eraseIdx_perm hlt).symm
  have hkept : (Ending.ofAnswer s.endpoint.isClosed outcome).isRefused = false :=
    Ending.isRefused_ofAnswer ..
  rw [List.filter_append, List.filter_singleton, hkept, Bool.not_false, cond_true, List.map_append,
    List.map_singleton, List.append_assoc, List.singleton_append]
  exact h.accounted.trans (hperm.append_left _)

theorem reckoned_next {s : Scene C} {asked : List Endpoint.Attempt}
    {ended : List (Endpoint.Attempt × Ending C)} (h : s.Reckoned asked ended) (m : Move C) :
    (s.next m).Reckoned (asked ++ s.asks m) (ended ++ s.endings m) := by
  cases hm : m.ofConnect with
  | false =>
    have hnone : s.asks m = [] ∧ s.endings m = [] := by
      cases m <;> first | exact ⟨rfl, rfl⟩ | cases hm
    have hsame := s.sameConnects_next hm
    rw [hnone.1, hnone.2, List.append_nil, List.append_nil]
    exact ⟨s.underWay_next hm ▸ h.accounted, hsame.connects.trans h.connects,
      hsame.failedConnects.trans h.failedConnects⟩
  | true =>
    cases m with
    | connect a panics =>
      simp only [next, step, connect, asks, endings]
      split
      · refine ⟨?_, ?_, ?_⟩
        · simpa [Ending.isRefused] using h.accounted
        · simpa [Ending.isAttached] using h.connects
        · simpa [Ending.isFailed] using h.failedConnects
      · refine ⟨?_, by simpa using h.connects, by simpa using h.failedConnects⟩
        simpa [List.append_assoc] using h.accounted.append_right [a]
    | connectEnds i outcome panics =>
      simp only [next, step, connectEnds, asks, endings, List.append_nil]
      cases hi : s.underWay[i]? with
      | none => simpa using h
      | some a =>
        have hperm := h.perm_of_answer hi outcome
        obtain ⟨hcon, hfail⟩ := s.endpoint.tally_finishConnect a outcome
        refine ⟨hperm, ?_, ?_⟩
        · rw [hcon, h.connects, ← UInt64.ofNat_add]
          simp [List.countP_append, List.countP_singleton]
        · rw [hfail, h.failedConnects, ← UInt64.ofNat_add]
          simp [List.countP_append, List.countP_singleton]
    | _ => cases hm

theorem reckoned_after (role : Role) (ipc : Bool) (config : Config) (ms : List (Move C)) :
    ((start role ipc config).after ms).Reckoned (gather next asks (start role ipc config) ms)
      (gather next endings (start role ipc config) ms) := by
  induction ms using List.reverseRecOn with
  | nil => exact ⟨List.Perm.refl _, rfl, rfl⟩
  | append_singleton ms m ih =>
    rw [Runs.concat after, gather_concat after, gather_concat after]
    exact reckoned_next ih m

/-- Every connect that ends is told of once, in the order in which they end. -/
theorem reported_history (s : Scene C) (ms : List (Move C)) :
    (s.history ms).filterMap Occurrence.reported? =
      (gather next endings s ms).map fun p => (p.1.token, p.2.code) := by
  rw [history, gather_hom _ List.filterMap_nil fun _ _ => List.filterMap_append,
    gather_hom _ List.map_nil fun _ _ => List.map_append]
  simp only [reported_step]

/-- The connects called on a closed endpoint are those refused. -/
theorem turnsAway_eq (s : Scene C) (ms : List (Move C)) :
    gather next turnsAway s ms =
      ((gather next endings s ms).filter (·.2.isRefused)).map Prod.fst := by
  rw [gather_hom endings (g := fun es => (es.filter (·.2.isRefused)).map Prod.fst) rfl
    fun _ _ => by rw [List.filter_append, List.map_append]]
  refine congrArg (fun f => gather next f s ms) (funext₂ fun s m => ?_)
  cases m with
  | connect a panics =>
    rw [turnsAway, endings]
    split <;> rfl
  | connectEnds i outcome panics =>
    rw [endings]
    cases s.underWay[i]? with
    | none => rfl
    | some a => simp [turnsAway, Ending.isRefused_ofAnswer]
  | _ => rfl

theorem dialed_history (s : Scene C) (ms : List (Move C)) :
    (s.history ms).filterMap Occurrence.dialed? = (gather next asks s ms).map (·.address) := by
  rw [history, gather_hom _ List.filterMap_nil fun _ _ => List.filterMap_append,
    gather_hom _ List.map_nil fun _ _ => List.map_append]
  simp only [dialed_step]

/-! ### Panics -/

/-- A callback's panic shows, and makes no other difference. -/
theorem step_calm (s : Scene C) (m : Move C) :
    s.step m.calm = ((s.step m).1, (s.step m).2.filter (!·.isPanic)) := by
  cases hb : m.callsBack with
  | false =>
    have hcalm : m.calm = m := by cases m <;> first | rfl | cases hb
    have hself : (s.step m).2.filter (!·.isPanic) = (s.step m).2 := by
      rw [List.filter_eq_self]
      intro o ho
      rw [(s.calm_step hb o ho).2]
      rfl
    rw [hcalm, hself]
  | true =>
    cases m with
    | connect a panics =>
      rw [Move.calm, step, step, connect, connect]
      split
      · next hc => simp [Endpoint.beginConnect, hc, panicOf]
      · next hc => simp [Endpoint.beginConnect, hc]
    | connectEnds i outcome panics =>
      rw [Move.calm, step, step, connectEnds, connectEnds]
      cases s.underWay[i]? with
      | none => rfl
      | some a =>
        cases outcome with
        | error f => simp [Endpoint.finishConnect, panicOf]
        | ok c =>
          cases hc : s.endpoint.isClosed <;>
            simp [Endpoint.finishConnect, hc, panicOf]
    | poll reader =>
      cases ht : s.endpoint.receiverTaken with
      | false => cases reader <;> simp [Move.calm, step, poll, ht]
      | true =>
        cases hr : s.endpoint.receive.1 <;> cases reader <;>
          simp [Move.calm, step, poll, ht, hr, panicOf]
    | _ => cases hb

/-- Without panicking callbacks everything comes out the same. -/
theorem after_calm (s : Scene C) (ms : List (Move C)) :
    s.after (ms.map Move.calm) = s.after ms := by
  induction ms generalizing s with
  | nil => rfl
  | cons m ms ih => rw [List.map_cons, Runs.cons after, Runs.cons after, next, step_calm, ih, next]

theorem history_calm (s : Scene C) (ms : List (Move C)) :
    s.history (ms.map Move.calm) = (s.history ms).filter (!·.isPanic) := by
  induction ms generalizing s with
  | nil => rfl
  | cons m ms ih =>
    have hrest := ih (s.next m)
    rw [history, history] at hrest
    rw [List.map_cons, history, history, gather, gather, next, step_calm, List.filter_append]
    exact congrArg _ hrest

/-! ### The account -/

omit [Located C] in
theorem countP_endings (ended : List (Endpoint.Attempt × Ending C)) :
    ended.countP (!·.2.isRefused) = ended.countP (·.2.isAttached) +
      ended.countP (·.2.isFailed) + ended.countP (·.2.isAborted) := by
  induction ended with
  | nil => rfl
  | cons p ended ih =>
    have hone : (if !p.2.isRefused then 1 else 0) = (if p.2.isAttached then 1 else 0) +
        (if p.2.isFailed then 1 else 0) + (if p.2.isAborted then 1 else 0) := by
      cases p.2 <;> rfl
    rw [List.countP_cons, List.countP_cons, List.countP_cons, List.countP_cons]
    omega

/-- The place for the attached connection holds what was put there last. -/
theorem connection_after (role : Role) (ipc : Bool) (config : Config) (ms : List (Move C)) :
    ((start role ipc config).after ms).endpoint.connection =
      (gather next places (start role ipc config) ms).getLast?.getD none := by
  induction ms using List.reverseRecOn with
  | nil => rfl
  | append_singleton ms m ih =>
    have hs := sound_after role ipc config ms (C := C)
    rw [Runs.concat after, connection_next _ m hs, ih, gather_concat after, List.getLast?_append]
    cases (places _ m).getLast? <;> rfl

/-- What connects come to. Whatever else goes on, the callback of each connect that has come to its
    end has been called exactly once, with the connect's own token and the code of what it came to:
    an invalid argument exactly if the endpoint was closed when it was called, and then the provider
    is not asked; aborted exactly if the provider's connection came after the close; OK exactly if
    the connection was attached. A connect that did not end well leaves all but the counters as it
    was. What can be taken is the connection attached last, unless it has been taken or the endpoint
    closed since. The counters tell how many connects came to what, and with those under way they
    account for each time that the provider was asked. A callback that panics changes nothing. -/
theorem connects_told_once (role : Role) (ipc : Bool) (config : Config) (ms : List (Move C)) :
    let s := start role ipc config
    let t := s.after ms
    let asked := gather next asks s ms
    let ended := gather next endings s ms
    (s.history ms).filterMap Occurrence.reported? =
      ended.map (fun p => (p.1.token, p.2.code)) ∧
    (∀ p ∈ ended,
      (p.2.code = .invalidArgument ↔ p.2.isRefused = true) ∧
      (p.2.code = .connectionAborted ↔ p.2.isAborted = true) ∧
      (p.2.code = .ok ↔ p.2.isAttached = true)) ∧
    gather next turnsAway s ms = (ended.filter (·.2.isRefused)).map Prod.fst ∧
    asked.Perm ((ended.filter (!·.2.isRefused)).map Prod.fst ++ t.underWay) ∧
    (s.history ms).filterMap Occurrence.dialed? = asked.map (·.address) ∧
    (∀ m, ∀ p ∈ t.endings m,
      (∀ c, p.2 = .attached c →
        (t.next m).endpoint.connection = some (.wrap t.endpoint.role c)) ∧
      (p.2.code ≠ .ok →
        (t.next m).endpoint = { t.endpoint with tally := (t.next m).endpoint.tally })) ∧
    t.endpoint.takeConnection.2 = (gather next places s ms).getLast?.getD none ∧
    (t.endpoint.isClosed = true → t.endpoint.takeConnection.2 = none) ∧
    t.endpoint.tally.get .connects = UInt64.ofNat (ended.countP (·.2.isAttached)) ∧
    t.endpoint.tally.get .failedConnects = UInt64.ofNat (ended.countP (·.2.isFailed)) ∧
    asked.length = ended.countP (·.2.isAttached) + ended.countP (·.2.isFailed) +
      ended.countP (·.2.isAborted) + t.underWay.length ∧
    s.after (ms.map Move.calm) = t ∧
    s.history (ms.map Move.calm) = (s.history ms).filter (!·.isPanic) := by
  intro s t asked ended
  have hs : t.endpoint.Sound := sound_after role ipc config ms
  have hr : t.Reckoned asked ended := reckoned_after role ipc config ms
  have hlength : asked.length = ended.countP (·.2.isAttached) + ended.countP (·.2.isFailed) +
      ended.countP (·.2.isAborted) + t.underWay.length := by
    rw [hr.accounted.length_eq, List.length_append, List.length_map,
      ← List.countP_eq_length_filter, countP_endings]
  refine ⟨s.reported_history ms, ?_, s.turnsAway_eq ms, hr.accounted, s.dialed_history ms, ?_,
    connection_after role ipc config ms, ?_, hr.connects, hr.failedConnects, hlength,
    s.after_calm ms, s.history_calm ms⟩
  · intro p _
    exact p.2.code_iff
  · rintro m ⟨a, x⟩ hp
    refine ⟨?_, ?_⟩
    · rintro c rfl
      exact t.connection_next_of_attached hs hp
    · intro hx
      exact t.endpoint_next_of_ending hp hx
  · intro hc
    exact (hs.closed hc).2

/-- The second connect ends first, the first one comes after the close, the third too late to
    ask. -/
def overlapping : List (Move Link) :=
  [.connect ⟨"a", 1⟩ none, .connect ⟨"b", 2⟩ none, .connectEnds 1 (.ok ⟨1000, none⟩) none,
    .close none, .connectEnds 0 (.ok ⟨1001, none⟩) none, .connect ⟨"c", 3⟩ none]

theorem connects_told_once_of_overlapping :
    let s : Scene Link := start .socket false {}
    (s.after overlapping).endpoint.isClosed = true ∧
      (s.after overlapping).endpoint.takeConnection.2 = none ∧
      (s.history overlapping).filterMap Occurrence.reported? =
        [(2, .ok), (1, .connectionAborted), (3, .invalidArgument)] := by
  intro s
  have hc : (s.after overlapping).endpoint.isClosed = true := rfl
  rcases connects_told_once .socket false {} overlapping with
    ⟨htold, -, -, -, -, -, -, hclosed, -⟩
  exact ⟨hc, hclosed hc, htold⟩

end Scene

end LocalEndpoint
