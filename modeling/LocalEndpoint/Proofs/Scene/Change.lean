import LocalEndpoint.Proofs.Scene.Aside
import LocalEndpoint.Proofs.Scene.Receiving

/-! What a move can do to an endpoint: `Change e m f os` says that `m` can leave `e` as `f`, while
    `os` occur, and `change_step` that no move does anything else. What every change keeps, every
    run keeps. -/

namespace LocalEndpoint

namespace Endpoint

variable {C : Type} [Located C]

/-- What a move leaves, and what occurs. -/
inductive Change (e : Endpoint C) : Move C → Endpoint C → List (Occurrence C) → Prop
  | aside {m f os} (hm : m.aside = true) (hb : e.Beside f)
      (ho : ∀ o ∈ os, o.onAcceptPath = false) : Change e m f os
  /-- The receiving side changes the channel at most. -/
  | receiving {m channel os} (hm : m.receives = true) (ho : ∀ o ∈ os, o.byLoop = false)
      (hcl : e.isClosed = true → ∀ o ∈ os, o.reachesConsumer = false)
      (hch : e.Reception m channel) : Change e m { e with channel } os
  | refusal {inRuntime requested answer os}
      (hr : (e.listen inRuntime requested answer).2.1 ≠ .ok .ok)
      (ho : ∀ o ∈ os, o.onAcceptPath = false) : Change e (.listen inRuntime requested answer) e os
  | opening {inRuntime requested resolved os}
      (hr : (e.listen inRuntime requested (.ok resolved)).2.1 = .ok .ok) (hc : e.isClosed = false)
      (hl : e.state.isListening = false) (ho : ∀ o ∈ os, o.onAcceptPath = false) :
      Change e (.listen inRuntime requested (.ok resolved))
        (e.startListening resolved (e.config.effectiveBacklog requested e.pendingInstances)) os
  | release : Change e .release e.release []
  | closing {answer os} (hc : e.isClosed = false) (ho : ∀ o ∈ os, o.onAcceptPath = false) :
      Change e (.close answer) e.shut os
  | closeAgain {answer} (hc : e.isClosed = true) : Change e (.close answer) e []
  | piece {l s f os} (hl : e.loop = some l) (hs : l.station = s) (hp : Piece e l s f os) :
      Change e .work f os
  | noLoop (hl : e.loop = none) : Change e .work e []
  | answered {l outcome} (hl : e.loop = some l) (hs : l.station = .accepting) :
      Change e (.acceptEnds outcome) (e.moveTo l (.settling outcome)) []
  | rung {l delay rung} (hl : e.loop = some l) (hs : l.station = .napping delay rung) :
      Change e .delayEnds (e.moveTo l (.napping delay true)) []
  | unawaited {outcome} : Change e (.acceptEnds outcome) e []
  | unheard : Change e .delayEnds e []

theorem change_listen (e : Endpoint C) (inRuntime : Bool) (requested : Size)
    (answer : Except Failure String) :
    Change e (.listen inRuntime requested answer) (e.listen inRuntime requested answer).1
      (e.listen inRuntime requested answer).2.2 := by
  by_cases hr : (e.listen inRuntime requested answer).2.1 = .ok .ok
  · obtain ⟨hc, hl, _, resolved, rfl, he⟩ := listen_of_ok hr
    have ho : ∀ o ∈ (e.listen inRuntime requested (.ok resolved)).2.2, o.onAcceptPath = false := by
      rw [he]; simp [Occurrence.onAcceptPath]
    have hopen := Change.opening hr hc hl ho
    rwa [he] at hopen ⊢
  · obtain ⟨he, ho⟩ := listen_of_ne_ok hr
    rw [he]
    exact .refusal hr ho

theorem change_close (e : Endpoint C) (answer : Option Failure) :
    Change e (.close answer) (e.close answer).1 (e.close answer).2 := by
  have ho := e.onAcceptPath_close answer
  cases hc : e.isClosed with
  | true => simpa [close, hc] using Change.closeAgain hc
  | false =>
    rw [close_fst, hc]
    exact .closing hc ho

theorem change_advance (e : Endpoint C) : Change e .work e.advance.1 e.advance.2 := by
  cases hl : e.loop with
  | none => rw [advance_of_loop_eq_none hl]; exact .noLoop hl
  | some l => exact .piece hl rfl (piece_advance hl)

theorem change_resolve (e : Endpoint C) (outcome : Except Failure C) :
    Change e (.acceptEnds outcome) (e.resolve outcome) [] := by
  rw [resolve]
  split
  · next hl => exact .answered hl rfl
  · exact .unawaited

theorem change_ring (e : Endpoint C) : Change e .delayEnds e.ring [] := by
  rw [ring]
  split
  · next hl => exact .rung hl rfl
  · exact .unheard

/-- All that occurs in a piece of the loop's work is the loop's doing. -/
theorem Piece.byLoop {e f : Endpoint C} {l : AcceptLoop C} {s : Station C}
    {os : List (Occurrence C)} (hp : Piece e l s f os) : ∀ o ∈ os, o.byLoop = true := by
  cases hp <;> simp

/-- A piece of the loop's work does not open a closed endpoint, nor close an open one. -/
theorem Piece.isClosed_eq {e f : Endpoint C} {l : AcceptLoop C} {s : Station C}
    {os : List (Occurrence C)} (h : Piece e l s f os) : f.isClosed = e.isClosed := by
  cases h with
  | cycle hc | succeed hc | recede hc => exact hc.symm
  | _ => rfl

/-- The loop leaves the receiving end where it is, and lets go of the sending end only where it
    stops. -/
theorem Piece.ends {e f : Endpoint C} {l : AcceptLoop C} {s : Station C}
    {os : List (Occurrence C)} (h : Piece e l s f os) :
    ∀ ch' ∈ f.channel, ∃ ch ∈ e.channel, ch'.custody = ch.custody ∧
      (s.ends = false → ch'.sending = ch.sending) := by
  intro ch' hch'
  cases h with
  | enter | send =>
    obtain ⟨ch, hch, rfl⟩ := Option.map_eq_some_iff.mp hch'
    exact ⟨ch, hch, rfl, fun _ => rfl⟩
  | stop =>
    obtain ⟨ch, hch, rfl⟩ := Option.map_eq_some_iff.mp hch'
    exact ⟨ch, hch, rfl, nofun⟩
  | _ => exact ⟨ch', hch', rfl, fun _ => rfl⟩

/-- A channel is there because a listener has just opened, or was there before; then its receiving
    end has stayed where it was, has been dropped, or has gone to who asked for it. -/
theorem Change.custody {e f : Endpoint C} {m : Move C} {os : List (Occurrence C)}
    (h : Change e m f os) :
    ∀ ch' ∈ f.channel,
      (e.isClosed = false ∧ ∃ inRuntime requested answer,
        m = .listen inRuntime requested answer ∧
          (e.listen inRuntime requested answer).2.1 = .ok .ok) ∨
      ∃ ch ∈ e.channel, ch'.custody = ch.custody ∨ ch'.custody = .dropped ∨
        ch.custody = .stored ∧ ch'.custody = .taken := by
  intro ch' hch'
  cases h with
  | aside _ hb => exact .inr ⟨ch', hb.channel ▸ hch', .inl rfl⟩
  | receiving _ _ _ hr =>
    rcases hr.ends ch' hch' with ⟨ch, hch, -, hcustody⟩
    exact .inr ⟨ch, hch, hcustody⟩
  | opening hr hc => exact .inl ⟨hc, _, _, _, rfl, hr⟩
  | closing =>
    rcases Option.map_eq_some_iff.mp hch' with ⟨ch, hch, rfl⟩
    refine .inr ⟨ch, hch, ?_⟩
    split
    · exact .inr (.inl rfl)
    · exact .inl rfl
  | piece _ _ hp =>
    rcases hp.ends ch' hch' with ⟨ch, hch, hsame, -⟩
    exact .inr ⟨ch, hch, .inl hsame⟩
  | _ => exact .inr ⟨ch', hch', .inl rfl⟩

/-- What is closed stays closed. -/
theorem Change.isClosed {e f : Endpoint C} {m : Move C} {os : List (Occurrence C)}
    (h : Change e m f os) (hc : e.isClosed = true) : f.isClosed = true := by
  cases h with
  | aside _ hb => exact hb.closed.trans hc
  | opening _ ho => exact absurd (hc.symm.trans ho) (by decide)
  | closing => rfl
  | piece _ _ hp => exact hp.isClosed_eq.trans hc
  | _ => exact hc

end Endpoint

namespace Scene

variable {C : Type} [Located C]

open Endpoint (Change)

/-- Every move is one of these changes. -/
theorem change_step (s : Scene C) (m : Move C) :
    Change s.endpoint m (s.next m).endpoint (s.step m).2 := by
  by_cases ha : m.aside = true
  · obtain ⟨hb, ho⟩ := s.beside_next ha
    exact .aside ha hb ho
  by_cases hr : m.receives = true
  · obtain ⟨channel, hnext, hch⟩ := s.reception_next hr
    rw [hnext]
    exact .receiving hr (s.byLoop_of_receives hr) (s.reachesConsumer_of_isClosed hr) hch
  cases m with
  | listen inRuntime requested answer => exact s.endpoint.change_listen inRuntime requested answer
  | release => exact .release
  | close answer => exact s.endpoint.change_close answer
  | work => exact s.endpoint.change_advance
  | acceptEnds outcome => exact s.endpoint.change_resolve outcome
  | delayEnds => exact s.endpoint.change_ring
  | _ => first | exact absurd rfl ha | exact absurd rfl hr

/-- What is open at the end of a run has been open all the time. -/
theorem isClosed_earlier (s : Scene C) {ns ms : List (Move C)} (h : ns <+: ms)
    (ho : (s.after ms).endpoint.isClosed = false) : (s.after ns).endpoint.isClosed = false := by
  obtain ⟨ls, rfl⟩ := h
  rw [Runs.append after] at ho
  cases hc : (s.after ns).endpoint.isClosed with
  | false => rfl
  | true =>
    have hl : ((s.after ns).after ls).endpoint.isClosed = true :=
      Runs.induction after (P := fun t => t.endpoint.isClosed = true) hc
        (fun t m ht => (t.change_step m).isClosed ht) ls
    rw [ho] at hl; cases hl

end Scene

end LocalEndpoint
