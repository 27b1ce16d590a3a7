import LocalEndpoint.Proofs.Scene.Change
import LocalEndpoint.Rehearsal.Basic
import Mathlib.Data.List.Induction

/-! The address of a listening endpoint. While the listener is open `bind` is refused, and nothing
    else names the endpoint but a connect that succeeds with a named local address
    (`Scene.renames`), which does not look whether there is a listener. So the address is that of
    the last such connect, else the listener's own (`address_after`), and it stays the listener's
    own exactly if every such connect has that very name. -/

namespace LocalEndpoint

namespace Endpoint

variable {C : Type}

/-- A loop, once there, is there for good. -/
theorem Change.loop_isSome [Located C] {e f : Endpoint C} {m : Move C} {os : List (Occurrence C)}
    (hc : Change e m f os) (h : e.loop.isSome = true) : f.loop.isSome = true := by
  cases hc with
  | aside _ hb => rw [hb.loop]; exact h
  | piece _ _ hp => cases hp <;> first | rfl | exact h
  | opening | answered | rung => rfl
  | _ => exact h

/-- Apart from naming and connecting, only `listen` and a close change the address. -/
theorem Change.address_eq [Located C] {e f : Endpoint C} {m : Move C} {os : List (Occurrence C)}
    (hc : Change e m f os) (hm : m.aside = false) (hl : e.state.isListening = true)
    (ho : f.isClosed = false) : f.address = e.address := by
  cases hc with
  | aside ha => rw [hm] at ha; cases ha
  | opening _ _ hn => rw [hl] at hn; cases hn
  | closing => cases ho
  | piece _ _ hp => cases hp <;> rfl
  | _ => rfl

theorem bind_of_holdsListener {e : Endpoint C} (h : e.holdsListener = true) (name : String) :
    (e.bind name).1 = e := by
  simp [bind, h]

end Endpoint

namespace Scene

variable {C : Type} [Located C]

/-- The local name of a connect that succeeds in a move, if it has one. -/
def renames (s : Scene C) : Move C → List String
  | .connectEnds i (.ok c) _ =>
    if s.endpoint.isClosed || s.underWay[i]?.isNone then [] else (Located.localAddress c).toList
  | _ => []

theorem renames_eq_nil_or_singleton (s : Scene C) (m : Move C) :
    s.renames m = [] ∨ ∃ name, s.renames m = [name] := by
  unfold renames
  split
  · next c _ =>
    split
    · exact .inl rfl
    · cases hc : Located.localAddress c with
      | none => exact .inl rfl
      | some name => exact .inr ⟨name, rfl⟩
  · exact .inl rfl

theorem renames_of_not_aside (s : Scene C) {m : Move C} (hm : m.aside = false) :
    s.renames m = [] := by
  cases m <;> first | rfl | cases hm

/-- While the listener is open and stays so, the address is the last name, or stays what it was. -/
theorem address_next (s : Scene C) (m : Move C) (hs : s.endpoint.Sound)
    (hl : s.endpoint.state.isListening = true) (ho : (s.next m).endpoint.isClosed = false) :
    (s.next m).endpoint.address = (s.renames m).getLast?.or s.endpoint.address := by
  cases ha : m.aside with
  | false =>
    rw [s.renames_of_not_aside ha]
    exact (s.change_step m).address_eq ha hl ho
  | true =>
    have hopen : s.endpoint.isClosed = false := Endpoint.isClosed_of_isListening hl
    cases m with
    | bind name =>
      have hh : s.endpoint.holdsListener = true := hs.listener.trans hl
      exact congrArg Endpoint.address (Endpoint.bind_of_holdsListener hh name)
    | connect a panics => rw [next, step, connect, if_neg (by simp [hopen])]; rfl
    | connectEnds i outcome panics =>
      rw [next, step, connectEnds]
      cases hi : s.underWay[i]? with
      | none => cases outcome <;> simp [renames, hi]
      | some a =>
        cases outcome with
        | error f => rfl
        | ok c =>
          simp only [Endpoint.finishConnect, renames, hopen, hi, Option.isNone_some, Bool.or_false,
            Bool.false_eq_true, if_false]
          cases hc : Located.localAddress c <;> simp [Endpoint.attach, Handle.wrap, hc]
    | setPendingInstances | fchmod | ref | unref | takeConnection => rfl
    | _ => cases ha

/-- An endpoint that is listening goes on listening until it is closed. -/
theorem isListening_next (s : Scene C) (m : Move C) (hs : s.endpoint.Sound)
    (hl : s.endpoint.state.isListening = true) (ho : (s.next m).endpoint.isClosed = false) :
    (s.next m).endpoint.state.isListening = true := by
  have hloop : s.endpoint.loop.isSome = true :=
    (hs.loop (Endpoint.isClosed_of_isListening hl)).trans hl
  rw [← (s.sound_next m hs).loop ho]
  exact (s.change_step m).loop_isSome hloop

/-- Until the close the address is the last name that a connect brought, else the first address. -/
theorem address_after (s : Scene C) {address : String} (hs : s.endpoint.Sound)
    (hl : s.endpoint.state.isListening = true) (ha : s.endpoint.address = some address)
    (ms : List (Move C)) (ho : (s.after ms).endpoint.isClosed = false) :
    (s.after ms).endpoint.state.isListening = true ∧
      (s.after ms).endpoint.address = some ((gather next renames s ms).getLast?.getD address) := by
  induction ms using List.reverseRecOn with
  | nil => exact ⟨hl, ha⟩
  | append_singleton ms m ih =>
    obtain ⟨hl', ha'⟩ := ih (s.isClosed_earlier (List.prefix_append ..) ho)
    have hs' : (s.after ms).endpoint.Sound :=
      Runs.induction after (P := fun t => t.endpoint.Sound) hs sound_next ms
    rw [Runs.concat after] at ho ⊢
    refine ⟨(s.after ms).isListening_next m hs' hl' ho, ?_⟩
    rw [(s.after ms).address_next m hs' hl' ho, ha', gather_concat after, List.getLast?_append]
    cases ((s.after ms).renames m).getLast? <;> rfl

/-- The last name is the first address after every part of a run exactly if there is no other. -/
theorem forall_getLast?_renames_iff (s : Scene C) (address : String) (ms : List (Move C)) :
    (∀ p, p <+: ms → (gather next renames s p).getLast?.getD address = address) ↔
      ∀ name ∈ gather next renames s ms, name = address := by
  constructor
  · intro h
    induction ms using List.reverseRecOn with
    | nil => exact List.forall_mem_nil _
    | append_singleton ms m ih =>
      have hall := h (ms ++ [m]) List.prefix_rfl
      have hms := ih fun p hp => h p (hp.trans (List.prefix_append ..))
      rw [gather_concat after] at hall ⊢
      obtain hr | ⟨name, hr⟩ := (s.after ms).renames_eq_nil_or_singleton m
      · rwa [hr, List.append_nil]
      · rw [hr, List.getLast?_concat] at hall
        rw [hr, List.forall_mem_append, List.forall_mem_singleton]
        exact ⟨hms, hall⟩
  · intro h p hp
    cases hlast : (gather next renames s p).getLast? with
    | none => rfl
    | some name =>
      exact h name ((prefix_gather after renames s hp).subset (List.mem_of_getLast? hlast))

/-- `fchmod` asks for the address at that time, and for nothing else. -/
theorem chmodCalled_mem_iff (s : Scene C) (bits : UInt32) (answer : Option Fault) (path : String)
    (permissions : UInt32) :
    .chmodCalled path permissions ∈ (s.step (.fchmod bits answer)).2 ↔
      ∃ access, Access.ofBits? bits = some access ∧ s.endpoint.address = some path ∧
        permissions = access.permissions := by
  simp only [step, put, Endpoint.fchmod, Endpoint.chmodTarget?]
  cases Access.ofBits? bits with
  | none => simp
  | some access =>
    cases s.endpoint.address with
    | none => simp
    | some address => cases answer <;> simp [eq_comm]

/-- The address of a listening endpoint. From a `listen` that returns OK to the close, the address
    is that of the last connect that brought a local name, else the listener's own. It stays the
    listener's own, and every change of permissions goes to that path, exactly if no connect brings
    another name. -/
theorem address_while_listening (role : Role) (ipc : Bool) (config : Config)
    (before after : List (Move C)) (inRuntime : Bool) (requested : Size) (resolved : String)
    (hok : (((start role ipc config).after before).endpoint.listen inRuntime requested
      (.ok resolved)).2.1 = .ok .ok)
    (hopen : (((start role ipc config).after
      (before ++ .listen inRuntime requested (.ok resolved) :: after)).endpoint.isClosed = false)) :
    let s := ((start role ipc config).after before).next
      (.listen inRuntime requested (.ok resolved))
    (∀ p, p <+: after →
      (s.after p).endpoint.address = some ((gather next renames s p).getLast?.getD resolved)) ∧
    ((∀ p, p <+: after → (s.after p).endpoint.address = some resolved) ↔
      ∀ name ∈ gather next renames s after, name = resolved) ∧
    ((∀ p, p <+: after → ∀ bits answer path permissions,
        .chmodCalled path permissions ∈ ((s.after p).step (.fchmod bits answer)).2 →
          path = resolved) ↔
      ∀ name ∈ gather next renames s after, name = resolved) := by
  intro s
  obtain ⟨-, -, _, _, ⟨rfl⟩, he⟩ := Endpoint.listen_of_ok hok
  have hs : s.endpoint.Sound := sound_next _ _ (sound_after role ipc config before)
  have hstart : s.endpoint.state.isListening = true ∧ s.endpoint.address = some resolved := by
    simp only [s, next, step, put, he]
    exact ⟨rfl, rfl⟩
  rw [Runs.append Scene.after, Runs.cons Scene.after] at hopen
  have haddr (p : List (Move C)) (hp : p <+: after) :
      (s.after p).endpoint.address = some ((gather next renames s p).getLast?.getD resolved) :=
    (s.address_after hs hstart.1 hstart.2 p (s.isClosed_earlier hp hopen)).2
  have hiff : (∀ p, p <+: after → (s.after p).endpoint.address = some resolved) ↔
      ∀ name ∈ gather next renames s after, name = resolved := by
    rw [← s.forall_getLast?_renames_iff]
    refine forall₂_congr fun p hp => ?_
    rw [haddr p hp, Option.some_inj]
  refine ⟨haddr, hiff, ?_⟩
  rw [← hiff]
  simp only [chmodCalled_mem_iff]
  refine forall₂_congr fun p hp => ⟨fun h => ?_, ?_⟩
  -- An `fchmod` for reading shows what the address is.
  · rw [haddr p hp, h Access.readBit none _ _ ⟨.readable, rfl, haddr p hp, rfl⟩]
  · rintro h bits answer path permissions ⟨access, -, ha, -⟩
    exact Option.some_inj.mp (ha.symm.trans h)

/-- A connect without a local name leaves the listener its address. -/
theorem address_while_listening_of_unnamed :
    (((start (C := Link) .server false {}).after [.bind "a"]).endpoint.listen true 1
        (.ok "b")).2.1 = .ok .ok ∧
      ∀ p, p <+: [.connect ⟨"r", 0⟩ none, .connectEnds 0 (.ok ⟨1000, none⟩) none, .bind "c"] →
        (((start (C := Link) .server false {}).after
          [.bind "a", .listen true 1 (.ok "b")]).after p).endpoint.address = some "b" := by
  have ho : ((start (C := Link) .server false {}).after [.bind "a", .listen true 1 (.ok "b"),
      .connect ⟨"r", 0⟩ none, .connectEnds 0 (.ok ⟨1000, none⟩) none, .bind "c"]).endpoint.isClosed
        = false := by decide
  have h := address_while_listening .server false {} [.bind "a"] _ true 1 "b" rfl ho
  exact ⟨rfl, h.2.1.mpr (by decide)⟩

/-- A connect that brings a name of its own puts it in the place of the listener's address, and
    `fchmod` asks for that path. -/
theorem address_overwritten_by_connect :
    let s := (start (C := Link) .server false {}).after
      [.bind "/run/app.sock", .listen true 4 (.ok "resolved:/run/app.sock"),
        .connect ⟨"/run/other.sock", 1⟩ none]
    let t := s.next (.connectEnds 0 (.ok ⟨1000, some "/run/peer.sock"⟩) none)
    s.endpoint.state = .listening ∧ s.endpoint.address = some "resolved:/run/app.sock" ∧
      t.endpoint.state = .listening ∧ t.endpoint.address = some "/run/peer.sock" ∧
      (t.endpoint.fchmod Access.readBit none).2 = [.chmodCalled "/run/peer.sock" 0o444] :=
  ⟨rfl, rfl, rfl, rfl, rfl⟩

end Scene

end LocalEndpoint
