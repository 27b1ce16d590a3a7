import LocalEndpoint.Proofs.Connecting
import LocalEndpoint.Proofs.Lifecycle
import LocalEndpoint.Rehearsal.Basic

/-! The name that an endpoint goes by. Three moves can give it one (`Scene.names`): a `bind` that
    returns OK, a connect that ends well with a connection that has a local address, and a `listen`
    that returns OK; a close takes it away. So the address is the last name given
    (`address_of_names`), whatever address a connect was called with (`after_redirect`), and that is
    the path whose permissions `fchmod` asks for.

    A connect that ends well without a local address gives no name, but the endpoint is idle no
    more: then it is bound without an address (`bound_without_address`). -/

namespace LocalEndpoint

/-- The permissions that everyone gets by a mode: for reading, for writing, or for both. -/
inductive Grants : UInt32 → UInt32 → Prop
  | reading : Grants 4 0o444
  | writing : Grants 8 0o222
  | both : Grants 12 0o666

theorem Access.grants_iff (bits permissions : UInt32) :
    Grants bits permissions ↔ (ofBits? bits).map Access.permissions = some permissions := by
  constructor
  · rintro ⟨⟩ <;> rfl
  · intro h
    rw [ofBits?] at h
    split at h
    · next hbits => subst hbits; cases h; exact .reading
    split at h
    · next hbits => subst hbits; cases h; exact .writing
    split at h
    · next hbits => subst hbits; cases h; exact .both
    · cases h

/-- The path and the permissions that the permission layer is asked for. -/
@[simp] def Occurrence.chmod? {C : Type} : Occurrence C → Option (String × UInt32)
  | .chmodCalled path permissions => some (path, permissions)
  | _ => none

/-- Whether a move calls `listen`. -/
def Move.listens {C : Type} : Move C → Bool
  | .listen .. => true
  | _ => false

/-- The same move, where connects are called with other addresses. -/
def Move.redirect {C : Type} (f : String → String) : Move C → Move C
  | .connect a panics => .connect { a with address := f a.address } panics
  | m => m

namespace Endpoint

variable {C : Type}

theorem bind_eq (e : Endpoint C) (name : String) :
    ((e.bind name).2 = .ok ∧ (e.bind name).1.address = some name ∧
        (e.bind name).1.state ≠ .idle) ∨
      ((e.bind name).2 ≠ .ok ∧ (e.bind name).1 = e) := by
  rw [bind]
  split
  · exact .inr ⟨fun h => (by cases h), rfl⟩
  · refine .inl ⟨rfl, rfl, ?_⟩
    by_cases hi : e.state = .idle <;> simp [hi]

/-- The address that a connect was called with makes no difference to what the endpoint becomes. -/
theorem finishConnect_fst [Located C] (e : Endpoint C) (a b : Attempt)
    (outcome : Except Failure C) :
    (e.finishConnect a outcome).1 = (e.finishConnect b outcome).1 := by
  cases outcome with
  | error failure => rfl
  | ok c => cases hc : e.isClosed <;> simp [finishConnect, hc]

/-- `fchmod` asks for the address, once, or not at all. -/
theorem fchmod_cases (e : Endpoint C) (bits : UInt32) (answer : Option Fault) :
    (∃ path permissions, e.address = some path ∧ Grants bits permissions ∧
        (e.fchmod bits answer).2.filterMap Occurrence.chmod? = [(path, permissions)] ∧
        (e.fchmod bits answer).1 = if answer.isNone then .ok else .unknown) ∨
      ((e.address = none ∨ ∀ permissions, ¬ Grants bits permissions) ∧
        (e.fchmod bits answer).2.filterMap Occurrence.chmod? = [] ∧
        (e.fchmod bits answer).1 = .invalidArgument) := by
  simp only [Access.grants_iff]
  rw [fchmod, chmodTarget?]
  cases Access.ofBits? bits with
  | none => exact .inr ⟨.inr fun _ h => (by cases h), rfl, rfl⟩
  | some access =>
    cases e.address with
    | none => exact .inr ⟨.inl rfl, rfl, rfl⟩
    | some path =>
      refine .inl ⟨path, access.permissions, rfl, rfl, ?_⟩
      cases answer with
      | none => exact ⟨rfl, rfl⟩
      | some fault => exact ⟨rfl, rfl⟩

/-- Inside a runtime, a bound endpoint that has an address asks the provider to listen there. -/
theorem listenCalled_mem_of_bound (e : Endpoint C) (hb : e.state = .bound) {address : String}
    (ha : e.address = some address) (requested : Size) (answer : Except Failure String) :
    .listenCalled address (e.config.effectiveBacklog requested e.pendingInstances) ∈
      (e.listen true requested answer).2.2 := by
  have ht : e.listenTarget true requested =
      .ok (address, e.config.effectiveBacklog requested e.pendingInstances) := by
    simp [listenTarget, isClosed, hb, ha, Lifecycle.isClosed, Lifecycle.isListening]
  cases answer with
  | ok resolved => simp [listen, ht]
  | error f => cases hv : Code.forListen f <;> simp [listen, ht, hv]

/-- A bound endpoint without an address asks nobody. -/
theorem listen_of_unaddressed (e : Endpoint C) (hb : e.state = .bound) (ha : e.address = none)
    (requested : Size) (answer : Except Failure String) :
    e.listen true requested answer = (e, .ok .invalidArgument, [.unaddressed]) := by
  have ht : e.listenTarget true requested = .error .unaddressed := by
    simp [listenTarget, isClosed, hb, ha, Lifecycle.isClosed, Lifecycle.isListening]
  simp only [listen, ht]

/-- Only naming, connecting, listening and closing change the address, or end an endpoint's
    idleness. -/
theorem Change.unnamed [Located C] {e f : Endpoint C} {m : Move C} {os : List (Occurrence C)}
    (h : Change e m f os) (hs : e.Sound) (ha : m.aside = false) (hl : m.listens = false)
    (ho : f.isClosed = false) :
    f.address = e.address ∧ (f.state = .idle ↔ e.state = .idle) := by
  cases h with
  | aside hm => rw [ha] at hm; cases hm
  | opening => cases hl
  | closing => cases ho
  | piece hloop _ hp =>
    have haddress : f.address = e.address := by cases hp <;> rfl
    refine ⟨haddress, ?_⟩
    rcases hp.state_eq_or_isListening with hsame | ⟨hc, hf⟩
    · rw [hsame]
    · -- The loop goes from one listening state to another, and none of them is idle.
      have he : e.state.isListening = true := hs.listening_of_loop hloop hc
      have hne {state : Lifecycle} (hlistening : state.isListening = true) : state ≠ .idle := by
        rintro rfl
        cases hlistening
      exact iff_of_false (hne hf) (hne he)
  | _ => exact ⟨rfl, Iff.rfl⟩

end Endpoint

namespace Scene

variable {C : Type}

/-- Whether somebody is told that a connect has ended well. -/
def tellsOk (os : List (Occurrence C)) : Bool :=
  (os.filterMap Occurrence.reported?).any (·.2 == .ok)

theorem tellsOk_append (os os' : List (Occurrence C)) :
    tellsOk (os ++ os') = (tellsOk os || tellsOk os') := by
  rw [tellsOk, List.filterMap_append, List.any_append]
  rfl

/-- The same scene, where the connects under way are to other addresses. -/
def redirect (f : String → String) (s : Scene C) : Scene C :=
  { s with underWay := s.underWay.map fun a => { a with address := f a.address } }

variable [Located C]

/-- The names that a move gives the endpoint, judged by what it answers or tells. -/
def names (s : Scene C) (m : Move C) : List String :=
  match m with
  | .bind name => if (s.endpoint.bind name).2 = .ok then [name] else []
  | .connectEnds _ (.ok c) _ =>
    if tellsOk (s.step m).2 then (Located.localAddress c).toList else []
  | .listen inRuntime requested (.ok resolved) =>
    if (s.endpoint.listen inRuntime requested (.ok resolved)).2.1 = .ok .ok then [resolved] else []
  | _ => []

/-! ### One move -/

theorem tellsOk_step (s : Scene C) (m : Move C) :
    tellsOk (s.step m).2 = (s.endings m).any (·.2.isAttached) := by
  rw [tellsOk, reported_step, List.any_map]
  refine congrArg (fun p => (s.endings m).any p) (funext fun p => ?_)
  rw [Bool.eq_iff_iff, ← p.2.code_iff.2.2]
  exact beq_iff_eq

theorem tellsOk_of_not_ofConnect (s : Scene C) {m : Move C} (hm : m.ofConnect = false) :
    tellsOk (s.step m).2 = false := by
  rw [tellsOk_step]
  cases m <;> first | rfl | cases hm

/-- A connect that ends well leaves its local address, if it has one, and an endpoint that is not
    idle; any other changes neither. -/
theorem connectEnds_cases (s : Scene C) (i : Nat) (outcome : Except Failure C)
    (panics : Option Payload) :
    let f := (s.next (.connectEnds i outcome panics)).endpoint
    let os := (s.step (.connectEnds i outcome panics)).2
    (tellsOk os = false ∧ f.address = s.endpoint.address ∧ f.state = s.endpoint.state) ∨
      (tellsOk os = true ∧ ∃ c, outcome = .ok c ∧
        f.address = (Located.localAddress c).or s.endpoint.address ∧ f.state ≠ .idle) := by
  intro f os
  have htells : tellsOk os = (s.endings (.connectEnds i outcome panics)).any (·.2.isAttached) :=
    s.tellsOk_step _
  rw [htells]
  simp only [f, next, step, connectEnds, endings]
  cases s.underWay[i]? with
  | none => exact .inl ⟨rfl, rfl, rfl⟩
  | some a =>
    cases outcome with
    | error failure => exact .inl ⟨rfl, rfl, rfl⟩
    | ok c =>
      cases hc : s.endpoint.isClosed with
      | true =>
        refine .inl ?_
        simp [Endpoint.finishConnect, Ending.ofAnswer, Ending.isAttached, hc]
      | false =>
        refine .inr ⟨rfl, c, rfl, ?_⟩
        simp only [Endpoint.finishConnect, hc, Bool.false_eq_true, if_false]
        refine ⟨rfl, ?_⟩
        by_cases hi : s.endpoint.state = .idle <;> simp [Endpoint.attach, hi]

/-- What a move does to the name of an endpoint that stays open. It gives no name, and address and
    idleness stay; or it gives one, or ends a connect well, and the endpoint is idle no more. -/
theorem naming_next (s : Scene C) (m : Move C) (hs : s.endpoint.Sound)
    (ho : (s.next m).endpoint.isClosed = false) :
    (s.names m = [] ∧ tellsOk (s.step m).2 = false ∧
        (s.next m).endpoint.address = s.endpoint.address ∧
        ((s.next m).endpoint.state = .idle ↔ s.endpoint.state = .idle)) ∨
      ((s.names m = [] → tellsOk (s.step m).2 = true) ∧
        (s.next m).endpoint.address = (s.names m).getLast?.or s.endpoint.address ∧
        (s.next m).endpoint.state ≠ .idle) := by
  have hquiet (hm : m.ofConnect = false) (hn : s.names m = [])
      (hf : (s.next m).endpoint = s.endpoint) :
      s.names m = [] ∧ tellsOk (s.step m).2 = false ∧
        (s.next m).endpoint.address = s.endpoint.address ∧
        ((s.next m).endpoint.state = .idle ↔ s.endpoint.state = .idle) := by
    rw [hf]
    exact ⟨hn, s.tellsOk_of_not_ofConnect hm, rfl, Iff.rfl⟩
  cases m with
  | bind name =>
    rcases s.endpoint.bind_eq name with ⟨hok, haddress, hstate⟩ | ⟨hne, hsame⟩
    · have hn : s.names (.bind name) = [name] := by rw [names, if_pos hok]
      rw [hn]
      exact .inr ⟨fun h => (by cases h), haddress, hstate⟩
    · exact .inl (hquiet rfl (by rw [names, if_neg hne]) hsame)
  | connect a panics =>
    have htells : tellsOk (s.step (.connect a panics)).2 = false := by
      rw [tellsOk_step, endings]
      split <;> rfl
    have hsame : (s.next (.connect a panics)).endpoint = s.endpoint := by
      rw [next, step, connect]
      split <;> rfl
    rw [hsame]
    exact .inl ⟨rfl, htells, rfl, Iff.rfl⟩
  | connectEnds i outcome panics =>
    rcases s.connectEnds_cases i outcome panics with
      ⟨htells, haddress, hstate⟩ | ⟨htells, c, rfl, haddress, hstate⟩
    · have hn : s.names (.connectEnds i outcome panics) = [] := by
        cases outcome with
        | error failure => rfl
        | ok c => rw [names, htells]; rfl
      rw [hstate]
      exact .inl ⟨hn, htells, haddress, Iff.rfl⟩
    · refine .inr ⟨fun _ => htells, ?_, hstate⟩
      rw [haddress, names, if_pos htells]
      cases Located.localAddress c <;> rfl
  | listen inRuntime requested answer =>
    by_cases hok : (s.endpoint.listen inRuntime requested answer).2.1 = .ok .ok
    · obtain ⟨-, -, _, resolved, rfl, he⟩ := Endpoint.listen_of_ok hok
      have hn : s.names (.listen inRuntime requested (.ok resolved)) = [resolved] := by
        rw [names, if_pos hok]
      rw [hn, next, step, put, he]
      exact .inr ⟨fun h => (by cases h), rfl, fun h => by cases h⟩
    · have hn : s.names (.listen inRuntime requested answer) = [] := by
        cases answer with
        | error failure => rfl
        | ok resolved => rw [names, if_neg hok]
      exact .inl (hquiet rfl hn (Endpoint.listen_of_ne_ok hok).1)
  | setPendingInstances n | takeConnection =>
    exact .inl ⟨rfl, s.tellsOk_of_not_ofConnect rfl, rfl, Iff.rfl⟩
  | fchmod | ref | unref => exact .inl (hquiet rfl rfl rfl)
  | _ =>
    exact .inl ⟨rfl, s.tellsOk_of_not_ofConnect rfl, (s.change_step _).unnamed hs rfl rfl ho⟩

omit [Located C] in
theorem redirect_endpoint (f : String → String) (s : Scene C) :
    (s.redirect f).endpoint = s.endpoint := rfl

/-- The addresses that connects are called with make no difference to the endpoint. -/
theorem next_redirect (f : String → String) (s : Scene C) (m : Move C) :
    (s.redirect f).next (m.redirect f) = (s.next m).redirect f := by
  cases m with
  | connect a panics =>
    cases hc : s.endpoint.isClosed <;>
      simp [Move.redirect, next, step, connect, redirect, hc]
  | connectEnds i outcome panics =>
    simp only [Move.redirect, next, step, connectEnds, redirect, List.getElem?_map]
    cases s.underWay[i]? with
    | none => rfl
    | some a =>
      simp only [Option.map_some, List.eraseIdx_map]
      rw [Endpoint.finishConnect_fst _ _ a]
  | poll reader =>
    change ((s.redirect f).poll reader).1 = (s.poll reader).1.redirect f
    rw [poll, poll, redirect_endpoint]
    split
    · cases s.endpoint.receive.1 <;> cases reader <;> rfl
    · rfl
  | _ => rfl

theorem after_redirect (f : String → String) (s : Scene C) (ms : List (Move C)) :
    (s.redirect f).after (ms.map (Move.redirect f)) = (s.after ms).redirect f := by
  induction ms generalizing s with
  | nil => rfl
  | cons m ms ih => rw [List.map_cons, Runs.cons after, next_redirect, ih, Runs.cons after]

/-- Only `fchmod` asks the permission layer. -/
theorem chmods_step (s : Scene C) (m : Move C) (hm : ∀ bits answer, m ≠ .fchmod bits answer) :
    (s.step m).2.filterMap Occurrence.chmod? = [] := by
  cases m with
  | fchmod bits answer => exact absurd rfl (hm bits answer)
  | connect a panics =>
    cases hc : s.endpoint.isClosed <;> cases panics <;>
      simp [step, connect, Endpoint.beginConnect, panicOf, hc]
  | connectEnds i outcome panics =>
    rw [step, connectEnds]
    cases s.underWay[i]? with
    | none => rfl
    | some a =>
      cases hc : s.endpoint.isClosed <;> cases outcome <;> cases panics <;>
        simp [Endpoint.finishConnect, panicOf, hc]
  | listen inRuntime requested answer =>
    rw [step, put, Endpoint.listen]
    cases s.endpoint.listenTarget inRuntime requested with
    | error refusal => cases refusal <;> rfl
    | ok target =>
      cases answer with
      | ok resolved => rfl
      | error failure => cases hv : Code.forListen failure <;> simp [hv]
  | poll reader =>
    rw [step, poll]
    split
    · cases s.endpoint.receive.1 <;> rcases reader with _ | _ | _ | _ <;> rfl
    · rfl
  | ref => cases hl : s.endpoint.holdsListener <;> simp [step, put, Endpoint.ref, hl]
  | unref => cases hl : s.endpoint.holdsListener <;> simp [step, put, Endpoint.unref, hl]
  | close answer =>
    rw [step, put]
    cases hc : s.endpoint.isClosed with
    | true => simp [Endpoint.close, hc]
    | false =>
      rcases answer with _ | _ | fault <;> cases hl : s.endpoint.closesListener <;>
        simp [Endpoint.close, hc, hl]
  | work =>
    rw [step, put]
    cases hl : s.endpoint.loop with
    | none => rw [Endpoint.advance_of_loop_eq_none hl]; rfl
    | some l =>
      rw [List.filterMap_eq_nil_iff]
      intro o ho
      have hbyLoop : o.byLoop = true := (Endpoint.piece_advance hl).byLoop o ho
      cases o <;> first | rfl | cases hbyLoop
  | _ => rfl

/-! ### Runs -/

variable (role : Role) (ipc : Bool) (config : Config)

/-- As long as the endpoint is open, its address is the last name given, and it is idle exactly if
    there is none and no connect has ended well. -/
theorem naming_after (ms : List (Move C)) :
    let s := start role ipc config
    let e := (s.after ms).endpoint
    e.isClosed = false →
      e.address = (gather next names s ms).getLast? ∧
      (e.state = .idle ↔ gather next names s ms = [] ∧ tellsOk (s.history ms) = false) := by
  intro s e ho
  induction ms using List.reverseRecOn with
  | nil => exact ⟨rfl, fun _ => ⟨rfl, rfl⟩, fun _ => rfl⟩
  | append_singleton ms m ih =>
    obtain ⟨haddress, hidle⟩ := ih (s.isClosed_earlier (List.prefix_append ..) ho)
    simp only [e] at ho ⊢
    rw [Runs.concat after] at ho ⊢
    rw [gather_concat after, history_concat, tellsOk_append, List.getLast?_append,
      List.append_eq_nil_iff, Bool.or_eq_false_iff, ← haddress]
    rcases (s.after ms).naming_next m (sound_after role ipc config ms) ho with
      ⟨hn, ht, hsame, hstate⟩ | ⟨hnt, hnew, hstate⟩
    · rw [hn, ht, hsame, hstate, hidle]
      exact ⟨rfl, by simp⟩
    · refine ⟨hnew, fun hi => absurd hi hstate, fun ⟨⟨_, hn⟩, _, ht⟩ => ?_⟩
      rw [hnt hn] at ht
      cases ht

/-- The address is the last name given, until a close takes it away. -/
theorem address_of_names (ms : List (Move C)) :
    let s := start role ipc config
    let t := s.after ms
    t.endpoint.address =
      if t.endpoint.isClosed then none else (gather next names s ms).getLast? := by
  intro s t
  split
  · next hc => exact ((sound_after role ipc config ms).closed hc).1
  · next hc => exact (naming_after role ipc config ms (by simpa using hc)).1

/-- Whatever the permission layer was asked for in a run was asked by an `fchmod`, for the address
    that the endpoint had then. -/
theorem exists_fchmod_of_mem_history (s : Scene C) {path : String} {permissions : UInt32}
    (ms : List (Move C)) (h : .chmodCalled path permissions ∈ s.history ms) :
    ∃ ns bits answer, ns ++ [.fchmod bits answer] <+: ms ∧ Grants bits permissions ∧
      (s.after ns).endpoint.address = some path := by
  obtain ⟨ns, m, hns, hcalled⟩ := exists_of_mem_gather after h
  have hcall : (path, permissions) ∈ ((s.after ns).step m).2.filterMap Occurrence.chmod? :=
    List.mem_filterMap.mpr ⟨_, hcalled, rfl⟩
  by_cases hm : ∀ bits answer, m ≠ .fchmod bits answer
  · rw [(s.after ns).chmods_step m hm] at hcall
    cases hcall
  · simp only [ne_eq, not_forall, not_not] at hm
    obtain ⟨bits, answer, rfl⟩ := hm
    rw [step, put] at hcall
    rcases (s.after ns).endpoint.fchmod_cases bits answer with
      ⟨_, _, haddress, hgrants, hcalls, -⟩ | ⟨-, hcalls, -⟩
    · rw [hcalls, List.mem_singleton] at hcall
      cases hcall
      exact ⟨ns, bits, answer, hns, hgrants, haddress⟩
    · rw [hcalls] at hcall
      cases hcall

/-- What `fchmod` does. Let any run of a fresh endpoint have been made. The address is the last of
    the names that a `bind`, a connect or a `listen` gave when it returned OK, unless the endpoint
    is closed, and the addresses that connects were called with make no difference. Then `fchmod`
    asks the permission layer once, for that address and for what the mode grants, if there is an
    address and the mode grants anything; it returns OK, or UNKNOWN if the layer fails. Else it
    returns EINVAL and asks for nothing. It changes nothing, and nothing else asks the layer: all
    that was asked for in the run was asked by an `fchmod`, for the last name given by then. -/
theorem fchmod_asks_for_last_name (ms : List (Move C)) :
    let s := start role ipc config
    let t := s.after ms
    (t.endpoint.address = if t.endpoint.isClosed then none else (gather next names s ms).getLast?) ∧
    (∀ f, (s.after (ms.map (Move.redirect f))).endpoint = t.endpoint) ∧
    (∀ bits answer,
      let calls := (t.step (.fchmod bits answer)).2.filterMap Occurrence.chmod?
      let code := (t.endpoint.fchmod bits answer).1
      (∃ path permissions, t.endpoint.address = some path ∧ Grants bits permissions ∧
          calls = [(path, permissions)] ∧ code = if answer.isNone then .ok else .unknown) ∨
        ((t.endpoint.address = none ∨ ∀ permissions, ¬ Grants bits permissions) ∧
          calls = [] ∧ code = .invalidArgument)) ∧
    (∀ bits answer, t.next (.fchmod bits answer) = t) ∧
    ∀ path permissions, .chmodCalled path permissions ∈ s.history ms →
      ∃ ns bits answer, ns ++ [.fchmod bits answer] <+: ms ∧ Grants bits permissions ∧
        (gather next names s ns).getLast? = some path := by
  intro s t
  refine ⟨address_of_names role ipc config ms, fun f => ?_, t.endpoint.fchmod_cases,
    fun _ _ => rfl, fun path permissions h => ?_⟩
  · have hnone : s.redirect f = s := rfl
    rw [← hnone, after_redirect]
    rfl
  · obtain ⟨ns, bits, answer, hns, hgrants, haddress⟩ := s.exists_fchmod_of_mem_history ms h
    refine ⟨ns, bits, answer, hns, hgrants, ?_⟩
    rw [address_of_names role ipc config ns] at haddress
    split at haddress
    · cases haddress
    · exact haddress

/-- An endpoint is bound, and a connect brings another name. -/
def renamed : List (Move Link) :=
  [.bind "/run/app.sock", .connect ⟨"/run/other.sock", 1⟩ none,
    .connectEnds 0 (.ok ⟨1000, some "/run/peer.sock"⟩) none]

theorem fchmod_asks_for_last_name_of_renamed :
    let s : Scene Link := start .socket false {}
    let ms := renamed ++ [.fchmod 12 none, .close none]
    .chmodCalled "/run/peer.sock" 0o666 ∈ s.history ms ∧
      ∃ ns bits answer, ns ++ [.fchmod bits answer] <+: ms ∧ Grants bits 0o666 ∧
        (gather next names s ns).getLast? = some "/run/peer.sock" := by
  intro s ms
  have hcalled : .chmodCalled "/run/peer.sock" 0o666 ∈ s.history ms := List.mem_cons_of_mem _ <|
    List.mem_cons_of_mem _ <| List.mem_cons_of_mem _ List.mem_cons_self
  obtain ⟨-, -, -, -, hasked⟩ := fchmod_asks_for_last_name .socket false {} ms
  exact ⟨hcalled, hasked _ _ hcalled⟩

/-- A run that leaves the endpoint open and nameless, though a connect has ended well in it. -/
def Nameless (s : Scene C) (ms : List (Move C)) : Prop :=
  (s.after ms).endpoint.isClosed = false ∧ gather next names s ms = [] ∧
    tellsOk (s.history ms) = true

theorem bound_without_address_iff (ms : List (Move C)) :
    let s := start role ipc config
    (s.after ms).endpoint.state = .bound ∧ (s.after ms).endpoint.address = none ↔
      s.Nameless ms := by
  intro s
  have hs : (s.after ms).endpoint.Sound := sound_after role ipc config ms
  constructor
  · rintro ⟨hbound, hnone⟩
    have ho : (s.after ms).endpoint.isClosed = false := by rw [Endpoint.isClosed, hbound]; rfl
    obtain ⟨haddress, hidle⟩ := naming_after role ipc config ms ho
    have hnames : gather next names s ms = [] :=
      List.getLast?_eq_none_iff.mp (haddress.symm.trans hnone)
    refine ⟨ho, hnames, ?_⟩
    cases htells : tellsOk (s.history ms) with
    | true => rfl
    | false =>
      have hi := hidle.mpr ⟨hnames, htells⟩
      rw [hbound] at hi
      cases hi
  · rintro ⟨ho, hnames, htells⟩
    obtain ⟨haddress, hidle⟩ := naming_after role ipc config ms ho
    have hnone : (s.after ms).endpoint.address = none := by
      rw [haddress, hnames]
      rfl
    have hbusy : (s.after ms).endpoint.state ≠ .idle := by
      intro hi
      have hf := (hidle.mp hi).2
      rw [htells] at hf
      cases hf
    have hdeaf : (s.after ms).endpoint.state.isListening ≠ true := by
      intro hl
      have hsome := hs.address hl
      rw [hnone] at hsome
      cases hsome
    refine ⟨?_, hnone⟩
    rw [Endpoint.isClosed] at ho
    revert ho hbusy hdeaf
    cases (s.after ms).endpoint.state <;> simp [Lifecycle.isClosed, Lifecycle.isListening]

/-- When an endpoint is bound without an address, and what follows. After every run of a fresh
    endpoint it is so exactly if the endpoint is open, no name was given to it, and a connect has
    ended well. Unless that is so, a `listen` on a bound endpoint inside a runtime asks the
    provider, for the last name given; and if it is so, `listen` returns EINVAL and asks nobody. -/
theorem bound_without_address (ms : List (Move C)) :
    let s := start role ipc config
    let e := (s.after ms).endpoint
    (e.state = .bound ∧ e.address = none ↔ s.Nameless ms) ∧
    (e.state = .bound → ∀ requested answer,
      (¬ s.Nameless ms → ∃ address, (gather next names s ms).getLast? = some address ∧
        .listenCalled address (e.config.effectiveBacklog requested e.pendingInstances) ∈
          (e.listen true requested answer).2.2) ∧
      (s.Nameless ms →
        e.listen true requested answer = (e, .ok .invalidArgument, [.unaddressed]))) := by
  intro s e
  have hiff := bound_without_address_iff role ipc config ms
  refine ⟨hiff, fun hbound requested answer => ⟨fun hnot => ?_, fun hnameless => ?_⟩⟩
  · cases ha : e.address with
    | none => exact absurd (hiff.mp ⟨hbound, ha⟩) hnot
    | some address =>
      have ho : e.isClosed = false := by rw [Endpoint.isClosed, hbound]; rfl
      refine ⟨address, (naming_after role ipc config ms ho).1.symm.trans ha, ?_⟩
      exact e.listenCalled_mem_of_bound hbound ha requested answer
  · exact e.listen_of_unaddressed hbound (hiff.mpr hnameless).2 requested answer

theorem bound_without_address_of_renamed :
    let s : Scene Link := start .socket false {}
    let e := (s.after renamed).endpoint
    e.state = .bound ∧ ¬ s.Nameless renamed ∧
      ∃ address, (gather next names s renamed).getLast? = some address ∧
        .listenCalled address (e.config.effectiveBacklog 4 e.pendingInstances) ∈
          (e.listen true 4 (.ok "resolved:/run/peer.sock")).2.2 := by
  intro s e
  have hbound : e.state = .bound := rfl
  have hnamed : ¬ s.Nameless renamed := fun ⟨_, hnames, _⟩ => nomatch hnames
  obtain ⟨-, hlaw⟩ := bound_without_address .socket false {} renamed
  exact ⟨hbound, hnamed, (hlaw hbound 4 _).1 hnamed⟩

/-- A connect to a peer, where the connection has no local name, leaves the endpoint bound without
    an address, so that `listen` is refused. -/
theorem bound_after_unnamed_connect :
    let s := (start (C := Link) .server false {}).after
      [.connect ⟨"/run/peer.sock", 1⟩ none, .connectEnds 0 (.ok ⟨1000, none⟩) none]
    s.endpoint.state = .bound ∧ s.endpoint.address = none ∧
      s.endpoint.listen true 4 (.ok "resolved:") =
        (s.endpoint, .ok .invalidArgument, [.unaddressed]) :=
  ⟨rfl, rfl, rfl⟩

end Scene

end LocalEndpoint
