import LocalEndpoint.Proofs.Address
import LocalEndpoint.Proofs.Closing
import LocalEndpoint.Proofs.Lifecycle
import LocalEndpoint.Proofs.Pace

/-! The accept path is by itself. Accepting depends on a part of the endpoint alone (`AcceptPath`),
    and the moves that make it up look at nothing else: put that part within any other endpoint, and
    they do there what they did here (`step_within`). Once an endpoint has listened, the moves aside
    leave the part alone, and so does another `listen`, which is refused. They can be taken out of a
    run, or put into it, and nobody who looks at the accept path can tell (`abreast_filter`). -/

namespace LocalEndpoint

/-- What accepting depends on and changes, of all that makes up an endpoint. -/
@[ext]
structure AcceptPath (C : Type) where
  ipc : Bool
  state : Lifecycle
  backlog : Option Size
  occupancy : Occupancy
  retry : Retry
  channel : Option (Channel (Event C))
  loop : Option (AcceptLoop C)
  accepted : UInt64
  acceptFailures : UInt64
  throttled : UInt64
  backoffs : UInt64

/-- An endpoint with this accept path, which has all else from `x`. -/
def AcceptPath.within {C : Type} (p : AcceptPath C) (x : Endpoint C) : Endpoint C :=
  { x with
    ipc := p.ipc
    state := p.state
    backlog := p.backlog
    occupancy := p.occupancy
    retry := p.retry
    channel := p.channel
    loop := p.loop
    tally :=
      { x.tally with
        accepted := p.accepted
        acceptFailures := p.acceptFailures
        throttled := p.throttled
        backoffs := p.backoffs } }

/-- Whether a move can concern the accept path of an endpoint that has listened. -/
def Move.onAcceptPath {C : Type} : Move C → Bool
  | .listen .. => false
  | m => !m.aside

/-- Whether it can concern the accept path; that time passes can. -/
def Tick.onAcceptPath {C : Type} : Tick C → Bool
  | .move m => m.onAcceptPath
  | .pass _ => true

namespace Endpoint

variable {C : Type}

def acceptPath (e : Endpoint C) : AcceptPath C where
  ipc := e.ipc
  state := e.state
  backlog := e.backlog
  occupancy := e.occupancy
  retry := e.retry
  channel := e.channel
  loop := e.loop
  accepted := e.tally.accepted
  acceptFailures := e.tally.acceptFailures
  throttled := e.tally.throttled
  backoffs := e.tally.backoffs

theorem eq_within {e f : Endpoint C} (h : f.acceptPath = e.acceptPath) :
    f = e.acceptPath.within f := by
  rw [← h]
  rfl

/-- A sound endpoint that has listened. -/
structure Founded (e : Endpoint C) : Prop where
  sound : e.Sound
  loop : e.loop.isSome = true

theorem Founded.of_isListening {e : Endpoint C} (hs : e.Sound) (hl : e.state.isListening = true) :
    e.Founded :=
  ⟨hs, (hs.loop (isClosed_of_isListening hl)).trans hl⟩

/-! ### Within another endpoint -/

section Within

variable (p : AcceptPath C) (x y : Endpoint C)

theorem waits_within : (p.within x).waits = (p.within y).waits := rfl

theorem napDelay?_within : (p.within x).napDelay? = (p.within y).napDelay? := rfl

/-- The loop follows the same line of the diagram. -/
theorem Piece.within [Located C] {p : AcceptPath C} {x f : Endpoint C} {l : AcceptLoop C}
    {s : Station C} {os : List (Occurrence C)} (hp : Piece (p.within x) l s f os)
    (y : Endpoint C) : Piece (p.within y) l s (f.acceptPath.within y) os := by
  cases hp with
  | begin => exact .begin
  | leave hs hc => exact .leave hs hc
  | discard hs hc => exact .discard hs hc
  | throttle hc hx => exact .throttle hc hx
  | cycle hc hx => exact .cycle hc hx
  | call => exact .call
  | await => exact .await
  | succeed hc => exact .succeed hc
  | fail hc => exact .fail hc
  | offer hc => exact .offer hc
  | forsake hg => exact .forsake hg
  | reserve hg hr => exact .reserve hg hr
  | block hg hr => exact .block hg hr
  | enter hc hh => exact .enter hc hh
  | send hc hh => exact .send hc hh
  | recede hc => exact .recede hc
  | count => exact .count
  | nap hc => exact .nap hc
  | sleepOn => exact .sleepOn
  | wake => exact .wake
  | resume hc => exact .resume hc
  | stop => exact .stop
  | rest => exact .rest

theorem advance_within [Located C] :
    (p.within x).advance =
      ((p.within y).advance.1.acceptPath.within x, (p.within y).advance.2) := by
  cases hl : p.loop with
  | none =>
    have hx : (p.within x).loop = none := hl
    have hy : (p.within y).loop = none := hl
    rw [advance_of_loop_eq_none hx, advance_of_loop_eq_none hy]
    rfl
  | some l =>
    have hx : (p.within x).loop = some l := hl
    have hy : (p.within y).loop = some l := hl
    exact ((piece_advance hy).within x).advance_eq hx rfl

theorem receive_within :
    (p.within x).receive =
      ((p.within y).receive.1, (p.within y).receive.2.acceptPath.within x) := by
  have hc : (p.within x).isClosed = (p.within y).isClosed := rfl
  have hx : (p.within x).channel = p.channel := rfl
  have hy : (p.within y).channel = p.channel := rfl
  simp only [receive, poll, hc, hx, hy]
  split
  · rfl
  · split <;> rfl

theorem takeReceiver_within :
    (p.within x).takeReceiver.1.acceptPath = (p.within y).takeReceiver.1.acceptPath := by
  have hx : (p.within x).channel = p.channel := rfl
  have hy : (p.within y).channel = p.channel := rfl
  simp only [takeReceiver, hx, hy]
  split
  · split <;> rfl
  · rfl

theorem close_within (answer : Option Failure) :
    ((p.within x).close answer).1.acceptPath = ((p.within y).close answer).1.acceptPath := by
  have hc : (p.within x).isClosed = (p.within y).isClosed := rfl
  rw [close_fst, close_fst, hc]
  split <;> rfl

theorem resolve_within (outcome : Except Failure C) :
    ((p.within x).resolve outcome).acceptPath = ((p.within y).resolve outcome).acceptPath := by
  have hx : (p.within x).loop = p.loop := rfl
  have hy : (p.within y).loop = p.loop := rfl
  simp only [resolve, hx, hy]
  split <;> rfl

theorem ring_within : (p.within x).ring.acceptPath = (p.within y).ring.acceptPath := by
  have hx : (p.within x).loop = p.loop := rfl
  have hy : (p.within y).loop = p.loop := rfl
  simp only [ring, hx, hy]
  split <;> rfl

end Within

end Endpoint

namespace Scene

variable {C : Type}

theorem poll_within (p : AcceptPath C) (x y : Endpoint C) (us vs : List Endpoint.Attempt)
    (reader : Reader) :
    let s : Scene C := ⟨p.within x, us⟩
    let t : Scene C := ⟨p.within y, vs⟩
    (s.poll reader).1.endpoint.acceptPath = (t.poll reader).1.endpoint.acceptPath ∧
      (s.poll reader).2 = (t.poll reader).2 := by
  intro s t
  have ht : (p.within x).receiverTaken = (p.within y).receiverTaken := rfl
  simp only [s, t, poll, ht, Endpoint.receive_within p x y]
  split
  · cases (p.within y).receive.1 <;> cases reader <;> exact ⟨rfl, rfl⟩
  · exact ⟨rfl, rfl⟩

variable [Located C]

/-- A move on the accept path does the same within another endpoint, to all that can be seen of it
    there. -/
theorem step_within (p : AcceptPath C) (x y : Endpoint C) (us vs : List Endpoint.Attempt)
    {m : Move C} (hm : m.onAcceptPath = true) :
    let s : Scene C := ⟨p.within x, us⟩
    let t : Scene C := ⟨p.within y, vs⟩
    (s.next m).endpoint.acceptPath = (t.next m).endpoint.acceptPath ∧
      (s.step m).2.filter Occurrence.onAcceptPath =
        (t.step m).2.filter Occurrence.onAcceptPath := by
  intro s t
  cases m with
  | takeReceiver => exact ⟨Endpoint.takeReceiver_within p x y, rfl⟩
  | poll reader =>
    obtain ⟨hpath, hos⟩ := poll_within p x y us vs reader
    exact ⟨hpath, congrArg _ hos⟩
  | dropReceiver =>
    refine ⟨?_, rfl⟩
    have ht : (p.within x).receiverTaken = (p.within y).receiverTaken := rfl
    simp only [s, t, next, step, put, ht]
    split <;> rfl
  | release => exact ⟨rfl, rfl⟩
  | close answer =>
    refine ⟨Endpoint.close_within p x y answer, ?_⟩
    have hnone (z : Endpoint C) : (z.close answer).2.filter Occurrence.onAcceptPath = [] := by
      rw [List.filter_eq_nil_iff]
      intro o ho
      simp [z.onAcceptPath_close answer o ho]
    exact (hnone _).trans (hnone _).symm
  | work =>
    have hadvance := Endpoint.advance_within p x y
    refine ⟨?_, ?_⟩
    · exact congrArg (fun r => r.1.acceptPath) hadvance
    · exact congrArg (fun r => r.2.filter Occurrence.onAcceptPath) hadvance
  | acceptEnds outcome => exact ⟨Endpoint.resolve_within p x y outcome, rfl⟩
  | delayEnds => exact ⟨Endpoint.ring_within p x y, rfl⟩
  | _ => cases hm

/-- Two endpoints with the same accept path still have it in common after a move on it. -/
theorem step_of_acceptPath_eq {s t : Scene C}
    (h : t.endpoint.acceptPath = s.endpoint.acceptPath) {m : Move C} (hm : m.onAcceptPath = true) :
    (t.next m).endpoint.acceptPath = (s.next m).endpoint.acceptPath ∧
      (t.step m).2.filter Occurrence.onAcceptPath =
        (s.step m).2.filter Occurrence.onAcceptPath := by
  obtain ⟨e, us⟩ := s
  obtain ⟨f, vs⟩ := t
  have hf : f = e.acceptPath.within f := Endpoint.eq_within h
  rw [hf]
  exact step_within e.acceptPath f e vs us hm

/-- Any other move does nothing to the accept path of an endpoint that has listened. -/
theorem acceptPath_next (s : Scene C) {m : Move C} (hm : m.onAcceptPath = false)
    (h : s.endpoint.Founded) :
    (s.next m).endpoint.acceptPath = s.endpoint.acceptPath ∧
      (s.step m).2.filter Occurrence.onAcceptPath = [] := by
  obtain ⟨hs, hl⟩ := h
  have hnone {os : List (Occurrence C)} (hos : ∀ o ∈ os, o.onAcceptPath = false) :
      os.filter Occurrence.onAcceptPath = [] := by
    rw [List.filter_eq_nil_iff]
    intro o ho
    simp [hos o ho]
  by_cases ha : m.aside = true
  · obtain ⟨hb, hos⟩ := s.beside_next ha
    refine ⟨?_, hnone hos⟩
    have hstate : (s.next m).endpoint.state = s.endpoint.state := by
      rcases s.state_next_of_aside ha with hsame | ⟨hidle, -⟩
      · exact hsame
      -- An idle endpoint has no loop.
      · have hno := hs.loop (by rw [Endpoint.isClosed, hidle]; rfl)
        rw [hidle, hl] at hno
        cases hno
    have hbacklog : (s.next m).endpoint.backlog = s.endpoint.backlog := by
      rw [(s.sound_next m hs).backlog, hs.backlog, hstate, hb.loop]
    exact AcceptPath.ext hb.ipc hstate hbacklog hb.occupancy hb.retry hb.channel hb.loop
      (hb.tally .accepted (by decide) (by decide))
      (hb.tally .acceptFailures (by decide) (by decide))
      (hb.tally .throttled (by decide) (by decide)) (hb.tally .backoffs (by decide) (by decide))
  · cases m with
    | listen inRuntime requested answer =>
      have hrefused : (s.endpoint.listen inRuntime requested answer).2.1 ≠ .ok .ok := by
        intro hok
        obtain ⟨hc, hn, -⟩ := Endpoint.listen_of_ok hok
        rw [hs.loop hc, hn] at hl
        cases hl
      obtain ⟨hsame, hos⟩ := Endpoint.listen_of_ne_ok hrefused
      exact ⟨congrArg Endpoint.acceptPath hsame, hnone hos⟩
    | _ => first | exact absurd rfl ha | cases hm

theorem founded_next (s : Scene C) (h : s.endpoint.Founded) (m : Move C) :
    (s.next m).endpoint.Founded :=
  ⟨s.sound_next m h.sound, (s.change_step m).loop_isSome h.loop⟩

end Scene

namespace Clocked

variable {C : Type} [Located C]

/-- What occurs on the accept path, with its time. -/
def onAcceptPath (c : Clocked C) : Tick C → List (Nat × Occurrence C)
  | .move m =>
    if c.admits m then ((c.scene.step m).2.filter Occurrence.onAcceptPath).map (c.now, ·) else []
  | .pass _ => []

/-- What occurs on the accept path in a run, with its times. -/
def timeline (timer : Timer) (c : Clocked C) (ks : List (Tick C)) : List (Nat × Occurrence C) :=
  gather (next timer) onAcceptPath c ks

omit [Located C] in
/-- Two endpoints at the same time and with the same accept path. -/
structure Abreast (c d : Clocked C) : Prop where
  now : d.now = c.now
  alarm : d.alarm = c.alarm
  path : d.scene.endpoint.acceptPath = c.scene.endpoint.acceptPath

omit [Located C] in
theorem Abreast.refl (c : Clocked C) : c.Abreast c := ⟨rfl, rfl, rfl⟩

namespace Abreast

variable (timer : Timer) {c d : Clocked C}

omit [Located C] in
theorem alarmAfter_eq (h : c.Abreast d) (m : Move C) :
    d.alarmAfter timer m = c.alarmAfter timer m := by
  have hloop : d.scene.endpoint.loop = c.scene.endpoint.loop :=
    congrArg AcceptPath.loop h.path
  cases m with
  | work => rw [alarmAfter, alarmAfter, hloop, h.now, h.alarm]
  | _ => exact h.alarm

omit [Located C] in
theorem lets_eq (h : c.Abreast d) (span : Nat) : d.lets span = c.lets span := by
  have hwithin := Endpoint.eq_within h.path
  have hwaits : d.scene.endpoint.waits = c.scene.endpoint.waits := by
    rw [hwithin]
    exact Endpoint.waits_within _ _ c.scene.endpoint
  have hnap : d.scene.endpoint.napDelay? = c.scene.endpoint.napDelay? := by
    rw [hwithin]
    exact Endpoint.napDelay?_within _ _ c.scene.endpoint
  rw [lets, lets, hwaits, hnap, h.now, h.alarm]

/-- What is done on the accept path of both keeps them abreast, and shows the same. -/
theorem next (h : c.Abreast d) {k : Tick C} (hk : k.onAcceptPath = true) :
    (c.next timer k).Abreast (d.next timer k) ∧ d.onAcceptPath k = c.onAcceptPath k := by
  cases k with
  | pass span =>
    refine ⟨?_, rfl⟩
    rw [Clocked.next, Clocked.next, step, step, h.lets_eq]
    split
    · exact ⟨congrArg (· + span) h.now, h.alarm, h.path⟩
    · exact h
  | move m =>
    have hadmits : d.admits m = c.admits m := by
      cases m with
      | delayEnds => rw [admits, admits, h.now, h.alarm]
      | _ => rfl
    obtain ⟨hpath, hos⟩ := Scene.step_of_acceptPath_eq h.path hk
    rw [Clocked.next, Clocked.next, step, step, onAcceptPath, onAcceptPath, hadmits]
    split
    · exact ⟨⟨h.now, h.alarmAfter_eq timer m, hpath⟩, by rw [h.now, hos]⟩
    · exact ⟨h, rfl⟩

/-- What is done off the accept path of one of them keeps them abreast, and shows nothing there. -/
theorem next_aside (h : c.Abreast d) (hd : d.scene.endpoint.Founded) {k : Tick C}
    (hk : k.onAcceptPath = false) : c.Abreast (d.next timer k) ∧ d.onAcceptPath k = [] := by
  cases k with
  | pass => cases hk
  | move m =>
    obtain ⟨hpath, hos⟩ := d.scene.acceptPath_next hk hd
    rw [Clocked.next, step, onAcceptPath]
    split
    · refine ⟨⟨h.now, ?_, hpath.trans h.path⟩, by rw [hos]; rfl⟩
      cases m with
      | work => cases hk
      | _ => exact h.alarm
    · exact ⟨h, rfl⟩

end Abreast

variable (timer : Timer)

theorem founded_next {c : Clocked C} (hc : c.scene.endpoint.Founded) (k : Tick C) :
    (c.next timer k).scene.endpoint.Founded := by
  cases k with
  | pass span =>
    rw [next, step]
    split <;> exact hc
  | move m =>
    rw [next, step]
    split
    · exact c.scene.founded_next hc m
    · exact hc

/-- A run and the same run without what is not on the accept path end abreast, and show the same
    there. -/
theorem abreast_filter {c d : Clocked C} (h : c.Abreast d) (hd : d.scene.endpoint.Founded)
    (ks : List (Tick C)) :
    (c.after timer (ks.filter Tick.onAcceptPath)).Abreast (d.after timer ks) ∧
      d.timeline timer ks = c.timeline timer (ks.filter Tick.onAcceptPath) := by
  induction ks generalizing c d with
  | nil => exact ⟨h, rfl⟩
  | cons k ks ih =>
    have hnext : (d.next timer k).scene.endpoint.Founded := founded_next timer hd k
    cases hk : k.onAcceptPath with
    | true =>
      obtain ⟨habreast, hshown⟩ := h.next timer hk
      obtain ⟨hafter, htimeline⟩ := ih habreast hnext
      rw [timeline, timeline] at htimeline
      rw [List.filter_cons_of_pos hk, timeline, timeline, gather, gather, htimeline, hshown]
      exact ⟨hafter, rfl⟩
    | false =>
      obtain ⟨habreast, hshown⟩ := h.next_aside timer hd hk
      obtain ⟨hafter, htimeline⟩ := ih habreast hnext
      rw [timeline, timeline] at htimeline
      rw [List.filter_cons_of_neg (by simp [hk]), timeline, timeline, gather, htimeline, hshown]
      exact ⟨hafter, rfl⟩

/-- The same time, the same accept path, and the same on it until then. -/
structure SameAccepting (timer : Timer) (c : Clocked C) (ks ls : List (Tick C)) : Prop where
  now : (c.after timer ls).now = (c.after timer ks).now
  path : (c.after timer ls).scene.endpoint.acceptPath = (c.after timer ks).scene.endpoint.acceptPath
  timeline : c.timeline timer ls = c.timeline timer ks

theorem sameAccepting {c : Clocked C} (hc : c.scene.endpoint.Founded) {ks ls : List (Tick C)}
    (h : ls.filter Tick.onAcceptPath = ks.filter Tick.onAcceptPath) :
    SameAccepting timer c ks ls := by
  obtain ⟨hks, htks⟩ := abreast_filter timer (.refl c) hc ks
  obtain ⟨hls, htls⟩ := abreast_filter timer (.refl c) hc ls
  rw [h] at hls htls
  exact ⟨hls.now.trans hks.now.symm, hls.path.trans hks.path.symm, htls.trans htks.symm⟩

/-- The accept path is isolated from everything else. From wherever an endpoint is listening, take
    two runs in which the same is done on the accept path and as much time passes between; what else
    is done, at which points and how often, may differ: naming, connecting, connects that end,
    taking the connection, setting pending instances, asking for access, ref and unref, another
    `listen`. Then everything on the accept path occurs in both at the same instants and in the same
    order, the begin of each accept and the delivery of each event with the rest; and from step to
    step the count of connections, the current delay, the backlog, the lifecycle state and the
    counters of accepts, failures, throttled cycles and delays are the same. -/
theorem accept_path_isolated (timer : Timer) (role : Role) (ipc : Bool) (config : Config)
    (before : List (Tick C)) {ks ls : List (Tick C)} :
    let c := (start role ipc config).after timer before
    c.scene.endpoint.state.isListening = true →
    ls.filter Tick.onAcceptPath = ks.filter Tick.onAcceptPath →
      SameAccepting timer c ks ls ∧
      ∀ p, p <+: ks → ∃ q, q <+: ls ∧
        q.filter Tick.onAcceptPath = p.filter Tick.onAcceptPath ∧ SameAccepting timer c p q := by
  intro c hl h
  have hs : c.scene.endpoint.Sound := sound_after timer role ipc config before
  have hc : c.scene.endpoint.Founded := .of_isListening hs hl
  refine ⟨sameAccepting timer hc h, ?_⟩
  rintro p ⟨rest, rfl⟩
  rw [List.filter_append] at h
  obtain ⟨q, _, rfl, hq, -⟩ := List.filter_eq_append_iff.mp h
  exact ⟨q, List.prefix_append .., hq, sameAccepting timer hc hq⟩

/-- A listener with an accept pending. -/
def poised : List (Tick Link) :=
  [.move (.bind "a"), .move (.listen true 1 (.ok "a")), .move .work, .move .work, .move .work]

/-- After a while a connection comes, and its event enters the channel. -/
def arrival : List (Tick Link) :=
  [.pass 7, .move (.acceptEnds (.ok ⟨0, none⟩)), .move .work, .move .work, .move .work, .move .work]

/-- The same, while others connect, set, ask and listen. -/
def bustle : List (Tick Link) :=
  [.move (.connect ⟨"b", 1⟩ none), .pass 7, .move (.setPendingInstances 9),
    .move (.acceptEnds (.ok ⟨0, none⟩)), .move (.listen true 5 (.ok "a")), .move .work,
    .move (.connectEnds 0 (.ok ⟨1, some "c"⟩) none), .move .work, .move .ref, .move .work,
    .move (.fchmod 3 none), .move .takeConnection, .move .work, .move .unref, .move (.bind "d")]

theorem accept_path_isolated_of_bustle :
    let c := (start .server false Scene.fixedBacklog).after .rehearsed poised
    c.scene.endpoint.state.isListening = true ∧
      bustle.filter Tick.onAcceptPath = arrival.filter Tick.onAcceptPath ∧
      (c.after .rehearsed arrival).scene.endpoint.count = 1 ∧
      (c.after .rehearsed bustle).scene.endpoint.address = some "c" ∧
      SameAccepting .rehearsed c arrival bustle := by
  intro c
  have hl : c.scene.endpoint.state.isListening = true := by decide
  have hsame : bustle.filter Tick.onAcceptPath = arrival.filter Tick.onAcceptPath := rfl
  refine ⟨hl, hsame, by decide, by decide, ?_⟩
  exact (accept_path_isolated .rehearsed .server false Scene.fixedBacklog poised hl hsame).1

end Clocked

end LocalEndpoint
