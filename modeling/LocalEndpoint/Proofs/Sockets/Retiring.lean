import LocalEndpoint.Proofs.Sockets.Tenancy
import Mathlib

/-! How a listener ends, and a server with it. A listener is shared by the endpoint and its accept
    loop, which may hold it long after the endpoint has been closed. While a server is open it holds
    its listener, and the call that closes the server takes the listener from it and closes that as
    well; whatever is done with the listener from then on finds it closed (`Tenure`). -/

namespace LocalEndpoint

theorem Endpoint.address_of_listenTarget {C : Type} {e : Endpoint C} {inRuntime : Bool}
    {requested : Size} {target : String × Size}
    (h : e.listenTarget inRuntime requested = .ok target) : e.address = some target.1 := by
  unfold listenTarget at h
  split at h; · cases h
  split at h; · cases h
  split at h; · cases h
  split at h; · cases h
  next ha => cases h; exact ha

namespace Unix

namespace Tenancy

variable {s : Tenancy} {id : Nat} {l : Listener}

theorem next_close_of_isClosed (hc : s.tenant.core.isClosed = true) : s.next .close = s := by
  simp [next, Endpoint.close, Endpoint.closesListener, hc]

theorem core_close_of_open (ho : s.tenant.core.isClosed = false) :
    (s.next .close).tenant.core = s.tenant.core.shut :=
  (s.tenant.core.close_fst none).trans (by rw [ho]; rfl)

theorem closing_next (s : Tenancy) {a : Happening} (hclose : a ≠ .close)
    (hlast : a ≠ .closeListener) : (s.next a).closing = s.closing := by
  cases a with
  | close => exact absurd rfl hclose
  | closeListener => exact absurd rfl hlast
  | other | move => simp only [next]; split <;> rfl
  | listen | connect | fchmod => rfl
  | accept | letGo =>
    simp only [next]
    split
    · split <;> rfl
    · rfl

theorem closing_closeListener (s : Tenancy) : (s.next .closeListener).closing = none := by
  cases hc : s.closing <;> simp [next, hc]

/-- But for a listen that succeeds, a tenant changes within its endpoint only. -/
theorem tenant_next (s : Tenancy) {a : Happening}
    (ha : ∀ backlog, a = .listen backlog → (s.tenant.listen s.host backlog).2.2 ≠ .ok .ok) :
    (s.next a).tenant = { s.tenant with core := (s.next a).tenant.core } := by
  cases a with
  | listen backlog => simp only [next, Tenant.listen_of_ne_ok (ha backlog rfl)]
  | connect path =>
    simp only [next, Tenant.connect]
    split
    · rfl
    · split <;> rfl
  | fchmod | close => rfl
  | other | closeListener | move => simp only [next]; split <;> rfl
  | accept | letGo =>
    simp only [next]
    split
    · split <;> rfl
    · rfl

theorem settings_next (s : Tenancy) (a : Happening) :
    (s.next a).tenant.settings = s.tenant.settings := by
  by_cases ha : ∃ backlog, a = .listen backlog ∧ (s.tenant.listen s.host backlog).2.2 = .ok .ok
  · obtain ⟨backlog, rfl, hok⟩ := ha
    obtain ⟨address, b, id, -, -, heq⟩ := Tenant.listen_of_ok hok
    simp only [next, heq]
  · rw [s.tenant_next fun backlog hl hok => ha ⟨backlog, hl, hok⟩]

/-! ### A server on a host -/

/-- What holds of a server on a host at every moment. -/
structure Serving (s : Tenancy) : Prop where
  core : s.tenant.core.Sound
  role : s.tenant.core.role = .server
  host : s.host.Sound
  /-- Only a call that has closed the endpoint has a listener to close. -/
  closing : s.tenant.core.isClosed = false → s.closing = none

theorem serving_next (hs : s.Serving) (a : Happening) : (s.next a).Serving := by
  have hhost : (s.next a).host.Sound := by
    rw [host_next]
    cases s.deed? a with
    | none => exact hs.host
    | some d => exact Host.sound_next hs.host d
  by_cases ha : a = .close
  · subst ha
    cases hc : s.tenant.core.isClosed with
    | true => rwa [next_close_of_isClosed hc]
    | false =>
      have hshut := core_close_of_open hc
      refine ⟨hshut ▸ hs.core.shut, ?_, hhost, ?_⟩
      · rw [hshut]; exact hs.role
      · rw [hshut]; intro ho; cases ho
  · have hon := s.onward_next ha
    refine ⟨hon.sound hs.core, hon.role.trans hs.role, hhost, fun ho => ?_⟩
    by_cases hlast : a = .closeListener
    · rw [hlast, closing_closeListener]
    · rw [s.closing_next ha hlast, hs.closing (hon.closed.symm.trans ho)]

/-- What is known of a server's listener once it has listened. -/
structure Tenure (s : Tenancy) (id : Nat) (l : Listener) : Prop extends Serving s where
  listener : s.tenant.listener = some id
  listening : s.tenant.core.isClosed = false → s.tenant.core.state.isListening = true
  taken : ∀ i, s.closing = some i → i = id
  /-- The listener lives until the call that closed the endpoint has closed it. -/
  lives : s.host.Lives id l (s.tenant.core.isClosed && s.closing.isNone)

namespace Tenure

theorem listen_ne_ok (ht : s.Tenure id l) (backlog : Size) :
    (s.tenant.listen s.host backlog).2.2 ≠ .ok .ok := by
  intro hok
  obtain ⟨address, b, i, htarget, -⟩ := Tenant.listen_of_ok hok
  obtain ⟨ho, hn, -⟩ := Endpoint.listenTarget_eq_ok htarget
  rw [ht.listening ho] at hn
  cases hn

theorem closesListener (ht : s.Tenure id l) (ho : s.tenant.core.isClosed = false) :
    s.tenant.core.closesListener = true := by
  rw [Endpoint.closesListener_eq ht.core ho, ht.core.loop ho, ht.listening ho, ht.role]
  rfl

/-- While the endpoint is open, it holds the listener. -/
theorem isClosed_of_isUnheld (ht : s.Tenure id l) (hu : s.isUnheld = true) :
    s.tenant.core.isClosed = true ∧ s.closing = none := by
  obtain ⟨hheld, hclosing⟩ := Bool.and_eq_true_iff.mp hu
  refine ⟨?_, Option.isNone_iff_eq_none.mp hclosing⟩
  cases ho : s.tenant.core.isClosed with
  | true => rfl
  | false =>
    have hholds : s.tenant.core.holdsListener = true := by rw [ht.core.listener, ht.listening ho]
    simp [Tenant.heldListener?, hholds, ht.listener] at hheld

/-- Nobody ends the listener but who is to close it, before the endpoint has let go of it. -/
theorem closed_of_ends (ht : s.Tenure id l) {a : Happening} {d : Deed} (hlast : a ≠ .closeListener)
    (hd : s.deed? a = some d) (hends : d.ends id = true) :
    s.tenant.core.isClosed = true ∧ s.closing = none := by
  cases a with
  | closeListener => exact absurd rfl hlast
  | other deed =>
    simp only [deed?, ht.listener] at hd
    split at hd
    · cases hd
    · next hmine =>
      cases hd
      simp [Deed.target?_of_ends hends] at hmine
  | listen | connect | accept =>
    simp only [deed?, ht.listener] at hd
    split at hd <;> cases hd
    cases hends
  | letGo =>
    simp only [deed?] at hd
    split at hd
    · next hu => exact ht.isClosed_of_isUnheld hu
    · cases hd
  | fchmod | close | move => cases hd

theorem closing_close (ht : s.Tenure id l) (ho : s.tenant.core.isClosed = false) :
    (s.next .close).closing = some id := by
  simp [Tenancy.next, ht.closesListener ho, ht.listener]

theorem isClosed_of_closing (ht : s.Tenure id l) (hc : s.closing = some id) :
    s.tenant.core.isClosed = true := by
  cases ho : s.tenant.core.isClosed with
  | true => rfl
  | false => rw [ht.closing ho] at hc; cases hc

theorem host_closeListener (hc : s.closing = some id) :
    (s.next .closeListener).host = s.host.next (.close id) := by
  rw [host_next, deed?, hc]
  rfl

theorem lives_next (ht : s.Tenure id l) (a : Happening) :
    (s.next a).host.Lives id l ((s.next a).tenant.core.isClosed && (s.next a).closing.isNone) := by
  by_cases hclose : a = .close
  · -- the endpoint lets go of the listener, which is not closed yet
    subst hclose
    cases hc : s.tenant.core.isClosed with
    | true => rw [next_close_of_isClosed hc]; exact ht.lives
    | false =>
      have hlives := ht.lives
      rw [hc] at hlives
      rw [ht.closing_close hc, Option.isNone_some, Bool.and_false]
      exact hlives
  rw [(s.onward_next hclose).closed]
  by_cases hlast : a = .closeListener
  · subst hlast
    cases hc : s.closing with
    | none =>
      have hsame : s.next .closeListener = s := by simp [Tenancy.next, hc]
      rw [hsame]
      exact ht.lives
    | some i =>
      cases ht.taken i hc
      have hlives := ht.lives.next (.close id)
      rw [closing_closeListener, ht.isClosed_of_closing hc, host_closeListener hc]
      simpa [Deed.ends] using hlives
  · rw [s.closing_next hclose hlast, host_next]
    cases hd : s.deed? a with
    | none => exact ht.lives
    | some d =>
      have hlives := ht.lives.next d
      cases hends : d.ends id with
      | false => rwa [hends, Bool.or_false] at hlives
      | true =>
        obtain ⟨hclosed, hnone⟩ := ht.closed_of_ends hlast hd hends
        rw [hclosed, hnone] at hlives ⊢
        exact hlives

theorem next (ht : s.Tenure id l) (a : Happening) : (s.next a).Tenure id l := by
  refine ⟨serving_next ht.toServing a, ?_, ?_, ?_, ht.lives_next a⟩
  · rw [s.tenant_next fun backlog _ => ht.listen_ne_ok backlog]
    exact ht.listener
  · intro ho
    by_cases hclose : a = .close
    · subst hclose
      cases hc : s.tenant.core.isClosed with
      | true => rw [next_close_of_isClosed hc, hc] at ho; cases ho
      | false => rw [core_close_of_open hc] at ho; cases ho
    · have hon := s.onward_next hclose
      exact hon.isListening ht.core (ht.listening (hon.closed.symm.trans ho))
  · intro i hi
    by_cases hclose : a = .close
    · subst hclose
      cases hc : s.tenant.core.isClosed with
      | true => rw [next_close_of_isClosed hc] at hi; exact ht.taken i hi
      | false => rw [ht.closing_close hc] at hi; cases hi; rfl
    · by_cases hlast : a = .closeListener
      · rw [hlast, closing_closeListener] at hi; cases hi
      · rw [s.closing_next hclose hlast] at hi; exact ht.taken i hi

theorem after (ht : s.Tenure id l) (as : List Happening) : (s.after as).Tenure id l :=
  Runs.induction Tenancy.after (P := fun t => t.Tenure id l) ht (fun _ a hp => hp.next a) as

/-- Once the listener is closed, the endpoint, its callers and its loop touch no file. -/
theorem stands?_next (ht : s.Tenure id l) (hopen : l.shut = false)
    (hclosed : s.tenant.core.isClosed = true) (hnone : s.closing = none) {a : Happening}
    (ha : a.isOwn = true) : (s.next a).host.stands? = s.host.stands? := by
  have hlives := ht.lives
  rw [hclosed, hnone] at hlives
  rw [host_next]
  cases hd : s.deed? a with
  | none => rfl
  | some d =>
    have hinert : d.target? = some id → (s.host.next d).stands? = s.host.stands? :=
      fun htarget => funext fun q => hlives.stands?_next_of_gone hopen htarget q
    cases a with
    | other => cases ha
    | listen backlog =>
      simp only [deed?] at hd
      split at hd
      · next htarget =>
        rw [(Endpoint.listenTarget_eq_ok htarget).1] at hclosed
        cases hclosed
      · cases hd
    | connect path => simp [deed?, hclosed] at hd
    | closeListener => simp [deed?, hnone] at hd
    | accept | letGo =>
      simp only [deed?, ht.listener] at hd
      split at hd <;> cases hd
      exact hinert rfl
    | fchmod | close | move => cases hd

end Tenure

/-- What is closed, with its listener closed, stays so. -/
theorem retired_after (hclosed : s.tenant.core.isClosed = true) (hnone : s.closing = none)
    (as : List Happening) :
    (s.after as).tenant.core.isClosed = true ∧ (s.after as).closing = none := by
  refine Runs.induction after (P := fun t => t.tenant.core.isClosed = true ∧ t.closing = none)
    ⟨hclosed, hnone⟩ ?_ as
  rintro t a ⟨hc, hn⟩
  by_cases hclose : a = .close
  · rw [hclose, next_close_of_isClosed hc]
    exact ⟨hc, hn⟩
  · refine ⟨(t.onward_next hclose).closed.trans hc, ?_⟩
    by_cases hlast : a = .closeListener
    · rw [hlast, closing_closeListener]
    · rw [t.closing_next hclose hlast, hn]

/-- A listen that succeeds begins a tenure, of a listener at the address of the endpoint. -/
theorem tenure_of_listen (hs : s.Serving) {backlog : Size}
    (hok : (s.tenant.listen s.host backlog).2.2 = .ok .ok) :
    ∃ id l, (s.next (.listen backlog)).Tenure id l ∧ s.tenant.core.address = some l.path ∧
      l.shut = false ∧ l.cleanup = s.tenant.settings.cleanupOnClose ∧
      isSocketPath l.path = true := by
  obtain ⟨address, b, id, htarget, hid, heq⟩ := Tenant.listen_of_ok hok
  obtain ⟨hopens, rfl⟩ := Host.listen_eq_ok_iff.mp hid
  obtain ⟨l, ho⟩ := Option.isSome_iff_exists.mp hopens
  obtain ⟨hvalid, hpath, hcleanup⟩ := Host.opens?_listen ho
  have hshut := (Host.opens?_fields ho).1
  have htenant : (s.next (.listen backlog)).tenant =
      { s.tenant with core := s.tenant.core.startListening address b
                      listener := some s.host.fresh } := heq
  have hhost : (s.next (.listen backlog)).host =
      s.host.next (.listen s.tenant.settings address) := by
    rw [host_next, deed?, htarget]
    rfl
  have hserving := serving_next hs (.listen backlog)
  have hbare : (s.next (.listen backlog)).host.bare? s.host.fresh = some l := by
    rw [hhost, (Host.effect_next hs.host.keys _).bare, if_pos ⟨rfl, hopens⟩, ho]
  have hclosing : (s.next (.listen backlog)).closing = none :=
    hs.closing (Endpoint.listenTarget_eq_ok htarget).1
  refine ⟨s.host.fresh, l, ⟨hserving, ?_, ?_, ?_, ?_⟩, ?_, hshut, hcleanup, ?_⟩
  · rw [htenant]
  · rw [htenant]; exact fun _ => rfl
  · rw [hclosing]; intro i hi; cases hi
  · rw [htenant]
    exact Host.lives_of_bare? hserving.host hbare hshut
  · rw [hpath]
    exact Endpoint.address_of_listenTarget htarget
  · rw [hpath]
    exact hvalid

/-- What the endpoint's close does once it comes to the listener. -/
theorem stands?_closeListener (ht : s.Tenure id l) (hopen : l.shut = false)
    (hcleanup : l.cleanup = true) (hc : s.closing = some id) (q : String) :
    (s.next .closeListener).host.stands? q = if l.path = q then none else s.host.stands? q := by
  have hlives := ht.lives
  rw [hc, Option.isNone_some, Bool.and_false] at hlives
  rw [Tenure.host_closeListener hc, hlives.stands?_next hopen rfl]
  simp [Deed.ends, hcleanup]

end Tenancy

/-- A listener that is closed is inert. Whoever has a listener, however many connections wait in its
    queue, and whatever else is done on its host: the first close succeeds and every later one finds
    it closed; an accept finds it closed exactly once it has been closed or let go; of all that is
    done with it, only what ends it touches a file, the one at its path, if its settings ask for
    that; and at most one deed done with it changes anything. So when the call that closes a
    listening server returns, the path of its listener is free, whatever stood there, and can be
    listened at at once; and what the endpoint, its callers and its loop do from then on, up to the
    last one's letting go of the listener, leaves every file alone. -/
theorem closed_listener_is_inert (files : PathMap) :
    (∀ before settings path id ds,
      let h := (Host.start files).after before
      let opened := h.next (.listen settings path)
      let g := opened.after ds
      let gone := ds.any (·.ends id)
      (h.listen settings path).2 = .ok id →
        (g.close id).2 = (if gone then some .listenerClosed else none) ∧
        (g.accept? id = some (g, .error .listenerClosed) ↔ gone = true) ∧
        (∀ d q, d.target? = some id → (g.next d).stands? q =
          if d.ends id = true ∧ gone = false ∧ settings.cleanupOnClose = true ∧ path = q then none
          else g.stands? q) ∧
        ∀ ms d ns e, ms ++ [d] <+: ds → ns ++ [e] <+: ds →
          d.target? = some id → e.target? = some id →
          ((opened.after ms).next d).stands? ≠ (opened.after ms).stands? →
          ((opened.after ns).next e).stands? ≠ (opened.after ns).stands? → ms = ns) ∧
    ∀ ipc config settings before backlog path during,
      let start : Tenancy :=
        { host := .start files, tenant := { core := .create .server ipc config, settings } }
      let s := start.after before
      let t := (s.next (.listen backlog)).after during
      let u := t.next .closeListener
      (s.tenant.listen s.host backlog).2.2 = .ok .ok → s.tenant.core.address = some path →
        settings.cleanupOnClose = true →
        (t.tenant.core.isClosed = false → (t.next .close).closing.isSome = true) ∧
        (t.closing.isSome = true →
          (∀ q, u.host.stands? q = if path = q then none else t.host.stands? q) ∧
          (u.host.files.refusal = none → ∀ other, ∃ id, (u.host.listen other path).2 = .ok id) ∧
          ∀ later a, a.isOwn = true →
            ((u.after later).next a).host.stands? = (u.after later).host.stands?) := by
  refine ⟨?_, ?_⟩
  · intro before settings path id ds h opened g gone hok
    have hs : h.Sound := Host.sound_after (Host.sound_start files) before
    obtain ⟨hopens, rfl⟩ := Host.listen_eq_ok_iff.mp hok
    obtain ⟨l, ho⟩ := Option.isSome_iff_exists.mp hopens
    obtain ⟨-, rfl, hcleanup⟩ := Host.opens?_listen ho
    have hshut := (Host.opens?_fields ho).1
    have hbare : opened.bare? h.fresh = some l := by
      rw [(Host.effect_next hs.keys _).bare, if_pos ⟨rfl, hopens⟩, ho]
    have hnew := Host.lives_of_bare? (Host.sound_next hs _) hbare hshut
    have hlives : g.Lives h.fresh l gone := by simpa using hnew.after ds
    refine ⟨?_, ?_, ?_, ?_⟩
    · rw [Host.snd_close, hlives.shut]
    · rw [Host.accept?_eq_closed_iff, hlives.shut]
    · intro d q hd
      rw [hlives.stands?_next hshut hd, hcleanup]
    · intro ms d ns e hms hns hd he
      exact hnew.moment_unique hshut hms hns hd he
  · intro ipc config settings before backlog path during start s t u hok haddress hcleanup
    have hserving : s.Serving :=
      Runs.induction Tenancy.after (P := Tenancy.Serving)
        ⟨Endpoint.sound_create .server ipc config, rfl, Host.sound_start files, fun _ => rfl⟩
        (fun _ a hs => Tenancy.serving_next hs a) before
    have hsettings : s.tenant.settings = settings :=
      Runs.induction Tenancy.after (P := fun t => t.tenant.settings = settings) rfl
        (fun t a ht => (t.settings_next a).trans ht) before
    obtain ⟨id, l, hlisten, hpath, hshut, hclean, hvalid⟩ := Tenancy.tenure_of_listen hserving hok
    have ht : t.Tenure id l := hlisten.after during
    rw [hpath] at haddress
    cases haddress
    rw [hsettings, hcleanup] at hclean
    refine ⟨fun ho => by rw [ht.closing_close ho]; rfl, ?_⟩
    intro hclosing
    obtain ⟨i, hi⟩ := Option.isSome_iff_exists.mp hclosing
    cases ht.taken i hi
    have hentry := Tenancy.stands?_closeListener ht hshut hclean hi
    have hclosed : u.tenant.core.isClosed = true :=
      (t.onward_next (by simp)).closed.trans (ht.isClosed_of_closing hi)
    refine ⟨hentry, ?_, ?_⟩
    · intro hrefusal other
      have hfree : u.host.stands? l.path = none := by rw [hentry, if_pos rfl]
      exact ⟨_, Host.listen_eq_ok_iff.mpr ⟨Host.isSome_opens?_of_free hvalid hrefusal hfree, rfl⟩⟩
    · intro later a ha
      obtain ⟨hlater, hnone⟩ := Tenancy.retired_after hclosed t.closing_closeListener later
      exact ((ht.next .closeListener).after later).stands?_next hshut hlater hnone ha

/-- A listener is closed while a connection waits in its queue. -/
def closedInHaste : Host PathMap :=
  (Host.start {}).after [.listen {} "a.sock", .connect "a.sock", .close 0]

/-- A server with the default settings, alone on its host, has an address. -/
def loneServer : Tenancy :=
  ({ host := .start {}, tenant := { core := .create .server false {} } } : Tenancy).after
    [.move (.bind "a.sock")]

/-- Its loop comes to wait for an accept, somebody connects, and it is closed. -/
def closedAtWork : List Happening :=
  [.move .work, .move .work, .move .work, .other (.connect "a.sock"), .close]

/-- It has listened, and the call that closed it returns. -/
def closedServer : Tenancy :=
  ((loneServer.next (.listen 4)).after closedAtWork).next .closeListener

/-- Then somebody else listens at the path, before its loop looks at the accept and ends. -/
def overtaken : Tenancy :=
  closedServer.after [.other (.listen {} "a.sock"), .accept, .move .work, .move .work]

/-- The connection in the queue is not accepted any more, and whoever still closes the listener
    finds it closed. The path of a closed server can be listened at, and the server's old listener,
    let go at last, leaves the new one's file where it is. -/
theorem closed_listener_is_inert_of_overtaken :
    closedInHaste.queued 0 = 1 ∧
      closedInHaste.accept? 0 = some (closedInHaste, .error .listenerClosed) ∧
      (closedInHaste.close 0).2 = some .listenerClosed ∧
      (∃ id, (closedServer.host.listen {} "a.sock").2 = .ok id) ∧
      overtaken.host.stands? "a.sock" = some ⟨1, true⟩ ∧ overtaken.isUnheld = true ∧
      (overtaken.next .letGo).host.stands? "a.sock" = some ⟨1, true⟩ := by
  have hopened : ((Host.start {}).listen {} "a.sock").2 = .ok 0 := by cbv
  have hlistened : (loneServer.tenant.listen loneServer.host 4).2.2 = .ok .ok := by cbv
  have haddress : loneServer.tenant.core.address = some "a.sock" := by cbv
  have hclosing : ((loneServer.next (.listen 4)).after closedAtWork).closing.isSome = true := by cbv
  have hrefusal : closedServer.host.files.refusal = none := by cbv
  have hnew : overtaken.host.stands? "a.sock" = some ⟨1, true⟩ := by cbv
  obtain ⟨hlistener, hserver⟩ := closed_listener_is_inert {}
  obtain ⟨hclose, haccept, -⟩ :=
    hlistener [] {} "a.sock" 0 [.connect "a.sock", .close 0] hopened
  obtain ⟨-, hclosed⟩ := hserver false {} {} [.move (.bind "a.sock")] 4 "a.sock" closedAtWork
    hlistened haddress rfl
  obtain ⟨-, hfree, hlater⟩ := hclosed hclosing
  exact ⟨by cbv, haccept.mpr rfl, hclose, hfree hrefusal {}, hnew, by cbv,
    (congrFun (hlater _ .letGo rfl) "a.sock").trans hnew⟩

end Unix

end LocalEndpoint
