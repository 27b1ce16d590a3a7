import LocalEndpoint.Proofs.Address
import LocalEndpoint.Proofs.ListenerClosing
import LocalEndpoint.Proofs.Sockets.Lifetime
import LocalEndpoint.Unix.Tenant

/-! An endpoint on a host that others use as well. Its listener is held by the endpoint and by the
    accept loop, and a call that closes the endpoint takes the listener from it before it closes the
    listener: others may come between, and the loop may let go of the listener long after. What
    happens is one list of what the endpoint, its callers, its loop and everybody else do. On the
    host, each of these is one deed at most (`host_next`). -/

namespace LocalEndpoint

namespace Endpoint

variable {C : Type}

/-- `f` comes after `e`, and the endpoint has not been closed between. -/
structure Onward (e f : Endpoint C) : Prop where
  role : f.role = e.role
  closed : f.isClosed = e.isClosed
  sound : e.Sound → f.Sound
  loop : e.loop.isSome = true → f.loop.isSome = true

theorem Onward.refl (e : Endpoint C) : e.Onward e := ⟨rfl, rfl, id, id⟩

theorem Onward.isListening {e f : Endpoint C} (h : e.Onward f) (hs : e.Sound)
    (hl : e.state.isListening = true) : f.state.isListening = true := by
  have ho : e.isClosed = false := isClosed_of_isListening hl
  rw [← (h.sound hs).loop (h.closed.trans ho)]
  exact h.loop ((hs.loop ho).trans hl)

end Endpoint

/-- Whether a move neither closes an endpoint nor asks a provider for a listener. -/
def Move.isCalm {C : Type} : Move C → Bool
  | .listen inRuntime _ _ => !inRuntime
  | .close _ => false
  | _ => true

namespace Scene

variable {C : Type} [Located C]

theorem role_of_isCalm (s : Scene C) {m : Move C} (hm : m.isCalm = true) :
    (s.next m).endpoint.role = s.endpoint.role := by
  cases ha : m.aside with
  | false => exact (s.change_step m).role_eq ha
  | true =>
    cases m with
    | connect a panics =>
      rw [next, step, connect]
      split <;> rfl
    | connectEnds i outcome panics =>
      rw [next, step, connectEnds]
      split
      · rfl
      · cases outcome with
        | error f => rfl
        | ok c =>
          cases hc : s.endpoint.isClosed <;> simp [Endpoint.finishConnect, hc, Endpoint.attach]
    | fchmod => rfl
    | bind | setPendingInstances | ref | unref | takeConnection => exact s.role_of_oneGo rfl
    | _ => cases ha

theorem isClosed_of_isCalm (s : Scene C) {m : Move C} (hm : m.isCalm = true) :
    (s.next m).endpoint.isClosed = s.endpoint.isClosed := by
  have hc := s.change_step m
  generalize (s.next m).endpoint = f, (s.step m).2 = os at hc
  cases hc with
  | aside _ hb => exact hb.closed
  | opening _ ho => exact ho.symm
  | closing => cases hm
  | piece _ _ hp => exact hp.isClosed_eq
  | _ => rfl

theorem onward_of_isCalm (s : Scene C) {m : Move C} (hm : m.isCalm = true) :
    s.endpoint.Onward (s.next m).endpoint :=
  ⟨s.role_of_isCalm hm, s.isClosed_of_isCalm hm, s.sound_next m, (s.change_step m).loop_isSome⟩

end Scene

namespace Unix

namespace Tenant

variable {F : Type} [FileSystem F] {t : Tenant} {h : Host F} {backlog : Size}

/-- An endpoint that has listened with success has the listener that its host opened. -/
theorem listen_of_ok (hok : (t.listen h backlog).2.2 = .ok .ok) :
    ∃ address b id, t.core.listenTarget true backlog = .ok (address, b) ∧
      (h.listen t.settings address).2 = .ok id ∧
      (t.listen h backlog).2.1 =
        { t with core := t.core.startListening address b, listener := some id } := by
  unfold listen at hok ⊢
  cases htarget : t.core.listenTarget true backlog with
  | error r =>
    rw [htarget] at hok
    obtain ⟨-, -, _, _, hanswer, -⟩ := Endpoint.listen_of_ok hok
    cases hanswer
  | ok target =>
    obtain ⟨address, b⟩ := target
    rw [htarget] at hok
    rcases hl : h.listen t.settings address with ⟨g, kind | id⟩
    · simp only [hl] at hok
      obtain ⟨-, -, _, _, hanswer, -⟩ := Endpoint.listen_of_ok hok
      cases hanswer
    · refine ⟨address, b, id, rfl, ?_, ?_⟩
      · rw [hl]
      · simp [hl, Endpoint.listen, htarget]

/-- Any other listen leaves it as it was. -/
theorem listen_of_ne_ok (hok : (t.listen h backlog).2.2 ≠ .ok .ok) :
    (t.listen h backlog).2.1 = t := by
  unfold listen at hok ⊢
  cases htarget : t.core.listenTarget true backlog with
  | error r =>
    rw [htarget] at hok
    simp only [(Endpoint.listen_of_ne_ok hok).1]
  | ok target =>
    obtain ⟨address, b⟩ := target
    rw [htarget] at hok
    rcases hl : h.listen t.settings address with ⟨g, kind | id⟩
    · simp only [hl] at hok ⊢
      rw [(Endpoint.listen_of_ne_ok hok).1]
    · simp [hl, Endpoint.listen, htarget] at hok

end Tenant

/-- One thing that happens to an endpoint on a host, or beside it. -/
inductive Happening where
  /-- Somebody else does something with sockets. -/
  | other (deed : Deed)
  | listen (backlog : Size)
  | connect (path : String)
  | fchmod (bits : UInt32)
  /-- The endpoint is closed, by a call or because it is dropped. -/
  | close
  /-- The call that closed the endpoint closes the listener, and returns. -/
  | closeListener
  /-- The accept that the loop waits for is looked at. -/
  | accept
  /-- Anything in which the host has no part. -/
  | move (m : Move Connection)
  /-- The last who holds the listener lets go of it. -/
  | letGo

/-- Whether the endpoint, its callers or its loop do it. -/
def Happening.isOwn : Happening → Bool
  | .other _ => false
  | _ => true

/-- An endpoint on a host. -/
structure Tenancy where
  host : Host PathMap
  tenant : Tenant
  /-- The connects that nobody has answered yet. -/
  underWay : List Endpoint.Attempt := []
  /-- The listener that a call has taken from the endpoint, and is still to close. -/
  closing : Option Nat := none

namespace Tenancy

/-- An endpoint and its connects. -/
def scene (s : Tenancy) : Scene Connection := ⟨s.tenant.core, s.underWay⟩

/-- Whether nobody holds the listener any more. -/
def isUnheld (s : Tenancy) : Bool := s.tenant.heldListener?.isNone && s.closing.isNone

/-- What happens next. Nobody but its holders can do anything with the endpoint's listener, and what
    nothing allows changes nothing. -/
def next (s : Tenancy) : Happening → Tenancy
  | .other deed =>
    if deed.target?.isSome && deed.target? == s.tenant.listener then s
    else { s with host := s.host.next deed }
  | .listen backlog =>
    let (host, tenant, _) := s.tenant.listen s.host backlog
    { s with host, tenant }
  | .connect path =>
    let (host, tenant, _) := s.tenant.connect s.host path
    { s with host, tenant }
  | .fchmod bits => { s with host := (s.tenant.fchmod s.host bits).1 }
  | .close =>
    { s with
      tenant := { s.tenant with core := (s.tenant.core.close none).1 }
      closing := if s.tenant.core.closesListener then s.tenant.listener else s.closing }
  | .closeListener =>
    match s.closing with
    | some id => { s with host := (s.host.close id).1, closing := none }
    | none => s
  | .accept =>
    if s.tenant.core.awaitsAccept then
      match s.tenant.listener.bind s.host.accept? with
      | some (host, outcome) =>
        { s with host, tenant := { s.tenant with core := s.tenant.core.resolve outcome } }
      | none => s
    else s
  | .move m =>
    if m.isCalm then
      { s with
        tenant := { s.tenant with core := (s.scene.next m).endpoint }
        underWay := (s.scene.next m).underWay }
    else s
  | .letGo =>
    match s.tenant.listener with
    | some id => if s.isUnheld then { s with host := s.host.dropListener id } else s
    | none => s

/-- The endpoint after all that happens. -/
def after (s : Tenancy) (as : List Happening) : Tenancy := as.foldl next s

instance : Runs after next := ⟨fun _ _ => rfl⟩

/-! ### On the host -/

/-- What happens on the host. -/
def deed? (s : Tenancy) : Happening → Option Deed
  | .other deed =>
    if deed.target?.isSome && deed.target? == s.tenant.listener then none else some deed
  | .listen backlog =>
    match s.tenant.core.listenTarget true backlog with
    | .ok (address, _) => some (.listen s.tenant.settings address)
    | .error _ => none
  | .connect path => if s.tenant.core.isClosed then none else some (.connect path)
  | .closeListener => s.closing.map .close
  | .accept => if s.tenant.core.awaitsAccept then s.tenant.listener.map .accept else none
  | .letGo => if s.isUnheld then s.tenant.listener.map .drop else none
  | .fchmod _ | .close | .move _ => none

theorem host_next (s : Tenancy) (a : Happening) :
    (s.next a).host = (s.deed? a).elim s.host s.host.next := by
  cases a with
  | other deed =>
    simp only [next, deed?]
    split <;> rfl
  | listen backlog =>
    simp only [next, deed?, Tenant.listen]
    cases s.tenant.core.listenTarget true backlog with
    | error r => rfl
    | ok target =>
      have hnext : s.host.next (.listen s.tenant.settings target.1) =
        (s.host.listen s.tenant.settings target.1).1 := rfl
      simp only [Option.elim, hnext]
      rcases s.host.listen s.tenant.settings target.1 with ⟨g, kind | id⟩ <;> rfl
  | connect path =>
    simp only [next, deed?, Tenant.connect]
    cases s.tenant.core.isClosed with
    | true => rfl
    | false =>
      simp only [Bool.false_eq_true, if_false, Option.elim]
      cases hconnect : s.host.connect path <;> simp [Host.next, hconnect]
  | fchmod bits =>
    simp only [next, deed?, Tenant.fchmod]
    cases s.tenant.core.chmodTarget? bits with
    | none => rfl
    | some target =>
      cases hentry : (s.host.files.entry? target.1).isSome <;> simp [FileSystem.chmod, hentry]
  | close => rfl
  | move m =>
    simp only [next]
    split <;> rfl
  | closeListener =>
    simp only [next, deed?]
    cases s.closing <;> rfl
  | accept =>
    simp only [next, deed?]
    cases s.tenant.core.awaitsAccept with
    | false => rfl
    | true =>
      cases s.tenant.listener with
      | none => rfl
      | some id =>
        simp only [if_true, Option.bind_some, Option.map_some, Option.elim]
        cases haccept : s.host.accept? id <;> simp [Host.next, haccept]
  | letGo =>
    simp only [next, deed?]
    cases s.isUnheld <;> cases s.tenant.listener <;> rfl

/-! ### In the endpoint -/

/-- Only a close closes the endpoint; whatever else happens, it goes on. -/
theorem onward_next (s : Tenancy) {a : Happening} (ha : a ≠ .close) :
    s.tenant.core.Onward (s.next a).tenant.core := by
  cases a with
  | close => exact absurd rfl ha
  | other deed =>
    simp only [next]
    split <;> exact .refl _
  | fchmod bits => exact .refl _
  | closeListener =>
    simp only [next]
    split <;> exact .refl _
  | letGo =>
    simp only [next]
    split
    · split <;> exact .refl _
    · exact .refl _
  | move m =>
    simp only [next]
    split
    · next hm => exact s.scene.onward_of_isCalm hm
    · exact .refl _
  | accept =>
    simp only [next]
    split
    · split
      · exact (Scene.onward_of_isCalm ⟨s.tenant.core, []⟩ (m := .acceptEnds _) rfl)
      · exact .refl _
    · exact .refl _
  | connect path =>
    have hends (outcome : Except Failure Connection) :
        s.tenant.core.Onward (s.tenant.core.finishConnect ⟨path, 0⟩ outcome).1 :=
      Scene.onward_of_isCalm ⟨s.tenant.core, [⟨path, 0⟩]⟩ (m := .connectEnds 0 outcome none) rfl
    simp only [next, Tenant.connect]
    split
    · exact .refl _
    · cases s.host.connect path with
      | error kind => exact hends _
      | ok made => exact hends _
  | listen backlog =>
    simp only [next]
    by_cases hok : (s.tenant.listen s.host backlog).2.2 = .ok .ok
    · obtain ⟨address, b, id, htarget, -, heq⟩ := Tenant.listen_of_ok hok
      obtain ⟨ho, -, -⟩ := Endpoint.listenTarget_eq_ok htarget
      rw [heq]
      exact ⟨rfl, ho.symm, fun _ => Endpoint.Sound.startListening address b, fun _ => rfl⟩
    · rw [Tenant.listen_of_ne_ok hok]
      exact .refl _

/-! ### What is done in one go -/

/-- A close that nobody comes between. -/
theorem after_close (s : Tenancy) (hc : s.closing = none) :
    s.after [.close, .closeListener] =
      { s with host := (s.tenant.close s.host).1, tenant := (s.tenant.close s.host).2 } := by
  obtain ⟨host, ⟨core, settings, listener⟩, underWay, closing⟩ := s
  cases hc
  simp only [Runs.cons after, Runs.nil after, next, Tenant.close]
  cases hcloses : core.closesListener with
  | false => rfl
  | true =>
    cases listener with
    | none => rfl
    | some id => simp [Endpoint.close_fst]

theorem after_moves (s : Tenancy) {ms : List (Move Connection)}
    (hms : ∀ m ∈ ms, m.isCalm = true) :
    s.after (ms.map .move) =
      { s with
        tenant := { s.tenant with core := (s.scene.after ms).endpoint }
        underWay := (s.scene.after ms).underWay } := by
  induction ms generalizing s with
  | nil => rfl
  | cons m ms ih =>
    obtain ⟨hm, hms⟩ := List.forall_mem_cons.mp hms
    rw [List.map_cons, Runs.cons after, ih _ hms]
    simp [next, hm, scene, Runs.cons Scene.after]

/-- The loop runs until it can only wait by its own steps. -/
theorem exists_after_eq_attendUpTo (n : Nat) (s : Tenancy) :
    ∃ as, (∀ a ∈ as, a.isOwn = true) ∧ s.after as =
      { s with
        host := (Tenant.attendUpTo n s.host s.tenant).1
        tenant := (Tenant.attendUpTo n s.host s.tenant).2 } := by
  induction n generalizing s with
  | zero => exact ⟨[], by simp, rfl⟩
  | succ n ih =>
    obtain ⟨k, hrun, -, -⟩ := s.scene.exists_after_eq_run
    let r : Tenancy := { s with tenant := { s.tenant with core := s.tenant.core.run.1 } }
    have hworks : s.after ((List.replicate k .work).map .move) = r := by
      rw [s.after_moves (by simp [Move.isCalm]), hrun]
      rfl
    have hown : ∀ a ∈ (List.replicate k (Move.work (C := Connection))).map Happening.move,
        a.isOwn = true := by simp [Happening.isOwn]
    -- one more step of the loop's own, and what the rest is made of
    have hgoOn (a : Happening) (ha : a.isOwn = true) (g : Host PathMap) (t : Tenant)
        (hnext : r.next a = { r with host := g, tenant := t }) :
        ∃ as, (∀ a ∈ as, a.isOwn = true) ∧ s.after as =
          { s with
            host := (Tenant.attendUpTo n g t).1
            tenant := (Tenant.attendUpTo n g t).2 } := by
      obtain ⟨as, has, hafter⟩ := ih (r.next a)
      refine ⟨(List.replicate k Move.work).map .move ++ a :: as, ?_, ?_⟩
      · intro b hb
        rcases List.mem_append.mp hb with hb | hb
        · exact hown b hb
        · rcases List.mem_cons.mp hb with rfl | hb
          · exact ha
          · exact has b hb
      · rw [Runs.append after, hworks, Runs.cons after, hafter, hnext]
    simp only [Tenant.attendUpTo]
    cases hawaits : s.tenant.core.run.1.awaitsAccept with
    | true =>
      simp only [if_true]
      cases haccept : s.tenant.listener.bind s.host.accept? with
      | none => exact ⟨_, hown, hworks⟩
      | some answer =>
        obtain ⟨g, outcome⟩ := answer
        exact hgoOn .accept rfl g _ (by simp [next, r, hawaits, haccept])
    | false =>
      simp only [Bool.false_eq_true, if_false]
      split
      · exact hgoOn (.move .delayEnds) rfl s.host _ rfl
      · exact ⟨_, hown, hworks⟩

/-- So does all that the loop can do now. -/
theorem exists_after_eq_attend (s : Tenancy) :
    ∃ as, (∀ a ∈ as, a.isOwn = true) ∧ s.after as =
      { s with host := (s.tenant.attend s.host).1, tenant := (s.tenant.attend s.host).2 } :=
  exists_after_eq_attendUpTo _ s

end Tenancy

end Unix

end LocalEndpoint
