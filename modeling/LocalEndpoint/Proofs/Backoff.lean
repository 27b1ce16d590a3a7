import LocalEndpoint.Proofs.Pace
import LocalEndpoint.Proofs.Retry

/-! The delays of an accept loop over a whole run. Failures and throttled cycles alike take the next
    delay of one retry, which `listen` finds fresh, an accept's success starts over and a close ends
    (`Draws`). So the delays since the last success (`spell`) are those of the closed form, however
    many beats of other kinds lie between. -/

namespace LocalEndpoint

/-- The delays that have begun since they were started over, after one more beat. -/
def Beat.count (delays : List Span) : Beat → List Span
  | .opened | .settled .ok => []
  | .sleep delay => delays ++ [delay]
  | _ => delays

/-- The delays that have begun since `listen` returned OK or an accept succeeded. -/
def spell (beats : List (Nat × Beat)) : List Span :=
  beats.foldl (fun delays x => x.2.count delays) []

theorem spell_append (beats : List (Nat × Beat)) (now : Nat) (new : List Beat) :
    spell (beats ++ new.map (now, ·)) = new.foldl Beat.count (spell beats) := by
  rw [spell, List.foldl_append, List.foldl_map]
  rfl

namespace Endpoint

variable {C : Type}

/-- What the beats of a move tell of the delays that have been handed out. -/
inductive Draws (e f : Endpoint C) : List Beat → Prop
  | nothing (h : f.isClosed = false → f.retry = e.retry) : Draws e f []
  | other {beat : Beat} (hb : ∀ delays, beat.count delays = delays) (h : f.retry = e.retry) :
      Draws e f [beat]
  | renewed {beat : Beat} (hb : ∀ delays, beat.count delays = []) (h : f.retry = e.retry.reset) :
      Draws e f [beat]
  | delayed (hc : e.isClosed = false) (h : f.retry = e.retry.advance) :
      Draws e f [.sleep e.retry.next]

theorem Piece.draws [Located C] {e f : Endpoint C} {l : AcceptLoop C} {s : Station C}
    {os : List (Occurrence C)} (hl : e.loop = some l) (hs : l.station = s) (hp : Piece e l s f os) :
    Draws e f (e.beats f os .work) := by
  rw [hp.beats_eq hl hs]
  cases hp with
  | leave hs hc | discard hs hc =>
    rw [beatAt?_of_isClosed hc (by rintro rfl; cases hs)]
    exact .nothing fun _ => rfl
  | throttle hc | cycle hc | enter hc | send hc =>
    rw [beatAt?, hc]
    exact .other (fun _ => rfl) rfl
  | call => exact .other (fun _ => rfl) rfl
  | fail hc =>
    rw [beatAt?, hc]
    exact .other (fun _ => by simp [Beat.count, Code.forAccept_ne_ok]) rfl
  | succeed hc =>
    rw [beatAt?, hc]
    exact .renewed (fun _ => rfl) rfl
  | recede hc =>
    rw [beatAt?, hc]
    exact .delayed hc rfl
  | _ => exact .nothing fun _ => rfl

theorem Change.draws [Located C] {e f : Endpoint C} {m : Move C} {os : List (Occurrence C)}
    (hc : Change e m f os) (hs : e.Sound) : Draws e f (e.beats f os m) := by
  cases hc with
  | aside hm hb => rw [beats_of_aside hm]; exact .nothing fun _ => hb.retry
  | receiving hm => rw [beats_of_receives hm]; exact .nothing fun _ => rfl
  | refusal hr => rw [beats_of_ne_ok hr]; exact .nothing fun _ => rfl
  | opening hr _ hl =>
    have hcurrent : e.retry.current = none := (hs.vacant hl).2.1
    rw [beats_of_ok hr]
    refine .renewed (fun _ => rfl) ?_
    change e.retry = _
    rw [Retry.reset, ← hcurrent]
  | closing => exact .nothing nofun
  | piece hl hst hp => exact hp.draws hl hst
  | noLoop hl =>
    have hnew : e.beats e [] .work = [] := by simp [Endpoint.beats, stir?, hl]
    rw [hnew]
    exact .nothing fun _ => rfl
  | _ => exact .nothing fun _ => rfl

namespace Draws

variable {e f : Endpoint C} {new : List Beat} {t : Timing} {beats : List (Nat × Beat)}

theorem handed (h : Draws e f new) (ho : f.isClosed = false) (now : Nat)
    (hr : e.retry.Handed t (spell beats)) :
    f.retry.Handed t (spell (beats ++ new.map (now, ·))) := by
  rw [spell_append]
  cases h with
  | nothing h => rw [h ho]; exact hr
  | other hb h => rw [h, List.foldl_cons, hb]; exact hr
  | renewed hb h => rw [h, List.foldl_cons, hb]; exact hr.reset
  | delayed _ h => rw [h]; exact hr.advance

theorem spells (h : Draws e f new) (now : Nat) (hs : t.Spells (spell beats))
    (hr : e.isClosed = false → e.retry.Handed t (spell beats)) :
    t.Spells (spell (beats ++ new.map (now, ·))) := by
  rw [spell_append]
  cases h with
  | nothing => exact hs
  | other hb => rw [List.foldl_cons, hb]; exact hs
  | renewed hb => rw [List.foldl_cons, hb]; exact .nil t
  | delayed hc => exact (hr hc).advance.spells

theorem eq_nil_or_singleton (h : Draws e f new) : new = [] ∨ ∃ beat, new = [beat] := by
  cases h with
  | nothing => exact .inl rfl
  | _ => exact .inr ⟨_, rfl⟩

end Draws

end Endpoint

namespace Clocked

variable {C : Type} [Located C] {timer : Timer} {c : Clocked C} {beats : List (Nat × Beat)}

/-- The delays of every part of a run are those of the timing, and the retry of an open endpoint has
    handed out the last of them. -/
structure Lawful (t : Timing) (c : Clocked C) (beats : List (Nat × Beat)) : Prop where
  spells : ∀ part, part <+: beats → t.Spells (spell part)
  handed : c.scene.endpoint.isClosed = false → c.scene.endpoint.retry.Handed t (spell beats)

theorem lawful_next {t : Timing} (k : Tick C) (hs : c.scene.endpoint.Sound)
    (h : Lawful t c beats) : Lawful t (c.next timer k) (beats ++ (c.step timer k).2) := by
  cases k with
  | move m =>
    rw [next, step]
    split
    · have hd : c.scene.endpoint.Draws (c.scene.next m).endpoint (c.scene.beats m) :=
        (c.scene.change_step m).draws hs
      have hbefore (ho : (c.scene.next m).endpoint.isClosed = false) :
          c.scene.endpoint.isClosed = false := by
        cases hc : c.scene.endpoint.isClosed with
        | false => rfl
        | true => rw [(c.scene.change_step m).isClosed hc] at ho; cases ho
      have hnew := hd.spells c.now (h.spells beats List.prefix_rfl) h.handed
      refine ⟨?_, ?_⟩
      · intro part hpart
        rcases hd.eq_nil_or_singleton with hn | ⟨beat, hn⟩
        · rw [hn, List.map_nil, List.append_nil] at hpart
          exact h.spells part hpart
        · rw [hn, List.map_singleton] at hpart hnew
          rcases List.prefix_concat_iff.mp hpart with rfl | hpart
          · exact hnew
          · exact h.spells part hpart
      · intro ho
        exact hd.handed ho c.now (h.handed (hbefore ho))
    · rwa [List.append_nil]
  | pass span =>
    rw [next, step]
    split <;> (rw [List.append_nil]; exact ⟨h.spells, h.handed⟩)

theorem lawful_after (timer : Timer) (role : Role) (ipc : Bool) (config : Config)
    (ks : List (Tick C)) :
    Lawful config.timing ((start role ipc config).after timer ks)
      ((start role ipc config).beats timer ks) := by
  induction ks using List.reverseRecOn with
  | nil =>
    refine ⟨?_, fun _ => .ofTiming config.timing⟩
    intro part hpart
    rw [List.prefix_nil.mp hpart]
    exact .nil _
  | append_singleton ks k ih =>
    rw [Runs.concat (after timer), beats_concat]
    exact lawful_next k (sound_after timer role ipc config ks) ih

/-- The backoff law. In every run, whatever callers, provider and consumer do and whenever they do
    it, the delays that the loop has begun since `listen` or since the last accept that succeeded
    are at every moment the first ones of the closed form: the shortest delay, doubled each time, up
    to the longest; so they never decrease and stay between the two. The current delay is the last
    of them, and none once the endpoint is closed.

    As long as the endpoint is open, the beats follow the diagram. So a cycle begins at the first
    millisecond at which the delay before it is over, or as soon as a connection has been sent, and
    calls for an accept, at once, exactly if no more connections are counted than the backlog; no
    beat lasts longer than that; and after each but those that wait for provider or consumer there
    is one more to come. -/
theorem backoff_law (timer : Timer) (role : Role) (ipc : Bool) (config : Config)
    (ks : List (Tick C)) :
    let c := (start role ipc config).after timer ks
    let beats := (start role ipc config).beats timer ks
    let lo := max 1000000 (min config.timing.initial.nanos config.timing.maximum.nanos)
    let hi := max 1000000 (max config.timing.initial.nanos config.timing.maximum.nanos)
    (∀ part, part <+: beats →
      (∀ (n : Nat) d, (spell part)[n]? = some d → d.nanos = min (lo * 2 ^ n) hi) ∧
      (spell part).Pairwise (·.nanos ≤ ·.nanos) ∧
      ∀ d ∈ spell part, lo ≤ d.nanos ∧ d.nanos ≤ hi) ∧
    c.scene.endpoint.currentBackoff =
      (if c.scene.endpoint.isClosed then none else (spell beats).getLast?) ∧
    (c.scene.endpoint.isClosed = false →
      beats.IsChain (Follows timer) ∧
      ∀ t beat, beats.getLast? = some (t, beat) →
        beat.Lasts timer t c.now ∧ (beat.pends = false → GoesOn timer c)) := by
  intro c beats lo hi
  have hl : Lawful config.timing c beats := lawful_after timer role ipc config ks
  refine ⟨?_, ?_, ?_⟩
  · intro part hpart
    have hs : config.timing.Spells (spell part) := hl.spells part hpart
    refine ⟨hs, hs.pairwise, ?_⟩
    intro d hd
    exact hs.bounds hd
  · cases hc : c.scene.endpoint.isClosed with
    | false => exact (hl.handed hc).current
    | true =>
      have hs : c.scene.endpoint.Sound := sound_after timer role ipc config ks
      exact (hs.vacant (Endpoint.isListening_of_isClosed hc)).2.1
  · intro ho
    have hp : c.scene.endpoint.Paced timer c.now c.alarm beats :=
      paced_after timer role ipc config ks ho
    refine ⟨hp.chain, ?_⟩
    intro t beat hlast
    refine ⟨hp.lasts hlast, ?_⟩
    intro hb
    exact goesOn ho hp hlast hb

/-- Settings whose shortest delay ends within a millisecond. -/
def uneven : Config := { timing := ⟨⟨2500000, by decide⟩, .ofSecs 1⟩, rule := .pendingInstances }

/-- A run in which an accept fails and the delay after it is waited out. -/
def retrying : List (Tick Link) :=
  [.move (.bind "a"), .move (.listen true 4 (.ok "a")), .move .work, .move .work, .move .work,
    .pass 2000000, .move (.acceptEnds (.error .listenerClosed)), .move .work, .move .work,
    .move .work, .move .work, .move .work, .move .work, .pass 3000000, .move .delayEnds,
    .move .work, .move .work, .move .work, .move .work]

/-- The delay is over two and a half milliseconds after it began, and three after it the cycle
    begins. -/
theorem backoff_law_of_retrying :
    let beats := (start .server false uneven).beats .rehearsed retrying
    beats.map (·.1) = [0, 0, 0, 2000000, 2000000, 2000000, 5000000] ∧
      (spell beats).map (·.nanos) = [2500000] ∧ beats.IsChain (Follows .rehearsed) := by
  have ho : ((start .server false uneven).after .rehearsed retrying).scene.endpoint.isClosed =
      false := by decide
  exact ⟨by decide, by decide,
    ((backoff_law .rehearsed .server false uneven retrying).2.2 ho).1⟩

end Clocked

end LocalEndpoint
