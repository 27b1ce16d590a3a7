import LocalEndpoint.Proofs.Containment
import LocalEndpoint.Proofs.Display

/-! Backpressure. A loop that waits for room has filled the channel (`exists_of_blocked`), so each
    event received lets one event enter, and that is the one in hand (`news_of_receipt`), behind
    those that were there before (`queued_of_receipt`). -/

namespace LocalEndpoint

namespace Scene

variable {C : Type} [Located C]

/-- The channel of an endpoint whose `listen` granted `b`, wherever a run goes from there. -/
theorem capacity_after {s : Scene C} (hs : s.endpoint.Sound) {inRuntime : Bool} {requested : Size}
    {answer : Except Failure String} {b : Size}
    (hb : s.endpoint.config.effectiveBacklog requested s.endpoint.pendingInstances = b)
    (hok : (s.endpoint.listen inRuntime requested answer).2.1 = .ok .ok) (ms : List (Move C)) :
    ∃ ch, (s.after (.listen inRuntime requested answer :: ms)).endpoint.channel = some ch ∧
      ch.capacity = max 1 (min b.toNat 65536) := by
  obtain ⟨resolved, hstart⟩ := next_of_listen_ok hok
  have hloop : (s.next (.listen inRuntime requested answer)).endpoint.loop.isSome = true := by
    rw [hstart]
    rfl
  obtain ⟨-, hcapacity⟩ := fixed_after (s.sound_next _ hs) hloop ms
  rw [hstart, hb] at hcapacity
  exact Option.map_eq_some_iff.mp hcapacity

/-! ### A blocked loop -/

/-- A loop that waits for room has filled the channel, and has one more event in hand. -/
theorem exists_of_blocked {e : Endpoint C} {answered settled sent received : List (Event C)}
    (h : e.Contained answered sent received) (hd : e.Delivered settled sent received)
    (hw : e.waitsForRoom = true) {ch : Channel (Event C)} (hch : e.channel = some ch)
    (hpos : 1 ≤ ch.capacity) :
    ∃ oldest rest held, e.queued = oldest :: rest ∧ rest.length + 1 = ch.capacity ∧
      e.held? = some held ∧ answered = sent ++ [held] ∧ sent = received ++ oldest :: rest := by
  obtain ⟨b, held, retries, ch', hl, -, hch', hcustody, hfull⟩ := Endpoint.exists_of_waitsForRoom hw
  cases hch.symm.trans hch'
  have hsent := hd.inChannel ch hch hcustody
  have hlength : ch.buffer.toList.length = ch.capacity := by
    have hle := h.inChannel ch hch
    have hsum := congrArg List.length hsent
    rw [List.length_append] at hsum
    rw [Fifo.size_eq_length] at hfull
    omega
  cases hq : ch.buffer.toList with
  | nil =>
    rw [hq] at hlength
    simp at hlength
    omega
  | cons oldest rest =>
    rw [hq] at hlength hsent
    refine ⟨oldest, rest, held, ?_, hlength, ?_, ?_, hsent⟩
    · rw [Endpoint.queued, hch]
      exact hq
    · rw [Endpoint.held?, hl]
      rfl
    · exact h.inHand _ hl

/-- A consumer of an open endpoint that looks for an event is given the oldest one. -/
theorem received_poll (s : Scene C) (reader : Reader) {oldest : Event C} {rest : List (Event C)}
    (ho : s.endpoint.isClosed = false) (ht : s.endpoint.receiverTaken = true)
    (hq : s.endpoint.queued = oldest :: rest) :
    (s.step (.poll reader)).2.filterMap Occurrence.received? = [oldest] := by
  obtain ⟨ch, hch, -⟩ := Endpoint.receiverTaken_iff.mp ht
  have hlist : ch.buffer.toList = oldest :: rest := by simpa [Endpoint.queued, hch] using hq
  have hfound : s.endpoint.receive.1 = .item oldest := by
    simp [Endpoint.receive, Endpoint.poll, ho, hch, Channel.receive_fst, hlist]
  rw [received_step, s.looks_poll reader ht, hfound]
  rfl

/-- Who has just received an event still has the receiving end of an open endpoint. -/
theorem open_of_received (s : Scene C) (reader : Reader)
    (h : (s.step (.poll reader)).2.filterMap Occurrence.received? ≠ []) :
    (s.next (.poll reader)).endpoint.isClosed = false ∧
      (s.next (.poll reader)).endpoint.receiverGone = false := by
  rw [next, step] at *
  have hp := s.polled_poll reader
  generalize (s.poll reader).1.endpoint = e, (s.poll reader).2 = os at hp h
  cases hp with
  | nothing => exact absurd rfl h
  | ended ho =>
    refine absurd (List.filterMap_eq_nil_iff.mpr ?_) h
    intro o hmem
    rw [ho o hmem]
    rfl
  | event hc _ ht hr =>
    obtain ⟨-, hcustody⟩ := Channel.toList_of_receive hr
    refine ⟨hc, ?_⟩
    simp [Endpoint.receiverGone, Channel.abandoned, hcustody, ht]

theorem open_after_work (s : Scene C) (n : Nat) (ho : s.endpoint.isClosed = false)
    (hg : s.endpoint.receiverGone = false) :
    (s.after (List.replicate n .work)).endpoint.isClosed = false ∧
      (s.after (List.replicate n .work)).endpoint.receiverGone = false := by
  induction n generalizing s with
  | zero => exact ⟨ho, hg⟩
  | succ n ih =>
    obtain ⟨hclosed, hgone⟩ := (s.change_step .work).work_keeps_open
    exact ih (s.next .work) (hclosed.trans ho) (hgone.trans hg)

theorem received_work (s : Scene C) (n : Nat) : s.received (List.replicate n .work) = [] := by
  rw [received, received_history]
  induction n generalizing s with
  | zero => rfl
  | succ n ih => exact ih (s.next .work)

section Receipt

variable {u : Endpoint C} {oldest held : Event C}
  {rest answered sent received settled later news : List (Event C)} {ch : Channel (Event C)}

/-- The place of the event received is the only one to be filled, and the event in hand is the first
    to fill it. -/
theorem news_of_receipt (hsent : sent = received ++ oldest :: rest)
    (h : u.Contained (sent ++ held :: later) (sent ++ news) (received ++ [oldest]))
    (hch : u.channel = some ch) (hlength : rest.length + 1 = ch.capacity) : news <+: [held] := by
  have hroom : news.length ≤ 1 := by
    have hle := h.inChannel ch hch
    have hsum := congrArg List.length hsent
    simp only [List.length_append, List.length_cons, List.length_nil] at hle hsum
    omega
  have horder : news <+: held :: later := (List.prefix_append_right_inj sent).mp h.inOrder
  exact List.prefix_of_prefix_length_le horder ⟨later, rfl⟩ hroom

omit [Located C] in
/-- It goes behind those that were there before. -/
theorem queued_of_receipt (hsent : sent = received ++ oldest :: rest)
    (hd : u.Delivered settled (sent ++ news) (received ++ [oldest]))
    (hg : u.receiverGone = false) : u.queued = rest ++ news := by
  obtain ⟨ch, hch, hcustody⟩ := Endpoint.exists_channel_of_not_gone hg
  have hall := hd.inChannel ch hch hcustody
  rw [hsent, List.append_assoc, List.append_assoc, List.append_cancel_left_eq, List.cons_append,
    List.singleton_append] at hall
  rw [Endpoint.queued, hch]
  exact (List.cons.inj hall).2.symm

omit [Located C] in
/-- As long as it has not entered, there is room for it. -/
theorem not_blocked_of_receipt (hq : u.queued = rest) (hch : u.channel = some ch)
    (hlength : rest.length + 1 = ch.capacity) : u.waitsForRoom = false := by
  cases hw : u.waitsForRoom with
  | false => rfl
  | true =>
    obtain ⟨-, -, -, ch', -, -, hch', -, hfull⟩ := Endpoint.exists_of_waitsForRoom hw
    cases hch.symm.trans hch'
    rw [Endpoint.queued, hch] at hq
    have hsize : ch.buffer.size = rest.length := by
      rw [Fifo.size_eq_length]
      exact congrArg List.length hq
    omega

end Receipt

/-- What a run adds once the consumer has received an event from a loop that waits for room, until
    it receives another. -/
theorem sent_after_receipt (role : Role) (ipc : Bool) (config : Config) (ms : List (Move C))
    {t : Scene C} (ht : (start role ipc config).after ms = t) {ch : Channel (Event C)}
    (hch : t.endpoint.channel = some ch) (hpos : 1 ≤ ch.capacity)
    (hw : t.endpoint.waitsForRoom = true) (htaken : t.endpoint.receiverTaken = true)
    (reader : Reader) :
    ∃ oldest rest held, t.endpoint.queued = oldest :: rest ∧ rest.length + 1 = ch.capacity ∧
      t.endpoint.held? = some held ∧
      (t.step (.poll reader)).2.filterMap Occurrence.received? = [oldest] ∧
      ∀ ns, (t.next (.poll reader)).received ns = [] →
        let u := ((t.next (.poll reader)).after ns).endpoint
        (t.next (.poll reader)).sent ns <+: [held] ∧
          (u.isClosed = false → u.receiverGone = false → u.waits = true →
            (t.next (.poll reader)).sent ns = [held] ∧ u.queued = rest ++ [held]) := by
  have hs : t.endpoint.Sound := ht ▸ sound_after role ipc config ms
  have hcontained := contained_after role ipc config ms
  have hdelivered := delivered_after role ipc config ms
  rw [ht] at hcontained hdelivered
  obtain ⟨oldest, rest, held, hq, hlength, hheld, hanswered, hsent⟩ :=
    exists_of_blocked hcontained hdelivered hw hch hpos
  obtain ⟨-, -, -, -, -, ho, -⟩ := Endpoint.exists_of_waitsForRoom hw
  have hpoll := t.received_poll reader ho htaken hq
  have hquiet : (t.step (.poll reader)).2.filterMap Occurrence.sent? = [] :=
    Occurrence.filterMap_sent?_eq_nil (t.byLoop_of_receives rfl)
  refine ⟨oldest, rest, held, hq, hlength, hheld, hpoll, ?_⟩
  intro ns hnone u
  -- The accounts of the whole run, with the receipt and what follows it.
  have hu : ((start role ipc config).after (ms ++ .poll reader :: ns)).endpoint = u := by
    rw [Runs.append after, ht]
    rfl
  have hsent' : (start role ipc config).sent (ms ++ .poll reader :: ns) =
      (start role ipc config).sent ms ++ (t.next (.poll reader)).sent ns := by
    rw [sent_append, ht, sent_cons, hquiet, List.nil_append]
  have hreceived' : (start role ipc config).received (ms ++ .poll reader :: ns) =
      (start role ipc config).received ms ++ [oldest] := by
    rw [received_append, ht, received_cons, hpoll, hnone, List.append_nil]
  have hanswers' : (start role ipc config).answers (ms ++ .poll reader :: ns) =
      (start role ipc config).answers ms ++ (t.next (.poll reader)).answers ns := by
    rw [answers_append, ht]
    rfl
  have hcontained' := contained_after role ipc config (ms ++ .poll reader :: ns)
  have hdelivered' := delivered_after role ipc config (ms ++ .poll reader :: ns)
  rw [hu, hsent', hreceived'] at hcontained' hdelivered'
  rw [hanswers', List.map_append, hanswered, List.append_assoc] at hcontained'
  obtain ⟨ch', hch', hcapacity⟩ : ∃ ch', u.channel = some ch' ∧ ch'.capacity = ch.capacity := by
    have hloop : t.endpoint.loop.isSome = true := by rw [← hs.channel, hch]; rfl
    obtain ⟨-, hfixed⟩ := fixed_after hs hloop (.poll reader :: ns)
    rw [hch] at hfixed
    exact Option.map_eq_some_iff.mp hfixed
  rw [← hcapacity] at hlength
  have hfirst := news_of_receipt hsent hcontained' hch' hlength
  refine ⟨hfirst, ?_⟩
  intro hopen hgone hwaits
  have hqueued := queued_of_receipt hsent hdelivered' hgone
  rcases List.prefix_cons_iff.mp hfirst with hns | ⟨more, hns, hmore⟩
  rotate_left
  · obtain rfl := List.prefix_nil.mp hmore
    exact ⟨hns, hns ▸ hqueued⟩
  -- It still has the event in hand, and there is room: it cannot be waiting.
  obtain ⟨hnext, -⟩ := (t.change_step (.poll reader)).occupied hs
    (Endpoint.occupied_of_held? hheld) hquiet
  obtain ⟨hoccupied, -⟩ :=
    (t.next (.poll reader)).occupied_after ns (t.sound_next _ hs) hnext hns
  have hsupplied : u.Supplied := hu ▸ supplied_after role ipc config (ms ++ .poll reader :: ns)
  obtain ⟨c, hc, hcustody⟩ := Endpoint.exists_channel_of_not_gone hgone
  have hblocked := hoccupied.waitsForRoom hwaits (hsupplied hopen c hc hcustody).2
  rw [hns, List.append_nil] at hqueued
  rw [not_blocked_of_receipt hqueued hch' hlength] at hblocked
  cases hblocked

/-- Left to itself, the loop then sends what it has in hand, and no more. -/
theorem run_after_receipt {t : Scene C} {reader : Reader} {held : Event C} {rest : List (Event C)}
    (hpoll : (t.step (.poll reader)).2.filterMap Occurrence.received? ≠ [])
    (hlaw : ∀ ns, (t.next (.poll reader)).received ns = [] →
      let u := ((t.next (.poll reader)).after ns).endpoint
      u.isClosed = false → u.receiverGone = false → u.waits = true →
        (t.next (.poll reader)).sent ns = [held] ∧ u.queued = rest ++ [held]) :
    (t.next (.poll reader)).endpoint.run.2.filterMap Occurrence.sent? = [held] ∧
      (t.next (.poll reader)).endpoint.run.1.queued = rest ++ [held] := by
  obtain ⟨n, hrun, hhistory, hwaits⟩ := (t.next (.poll reader)).exists_after_eq_run
  obtain ⟨ho, hg⟩ := t.open_of_received reader hpoll
  obtain ⟨ho', hg'⟩ := (t.next (.poll reader)).open_after_work n ho hg
  have hends := hlaw _ ((t.next (.poll reader)).received_work n) ho' hg'
  rw [Scene.sent, hhistory, hrun] at hends
  exact hends hwaits

/-- Backpressure bounds what can be lost. Let `listen` return OK with the backlog `b`, whatever
    has happened before and whatever is done from then on, and let `k` be `b`, but at least one
    and at most 65536. At every moment the events sent and not received are `k` at most, and one
    more accept at most has been answered, so at most `k + 1` answers have not been received.
    While the loop has one in hand, and until it has sent it, no accept is pending and none
    begins. As long as the endpoint is open and the receiving end is there, nothing is lost: the
    events of all the accepts that were answered are those received, those in the channel, and
    the one in hand. Where the loop waits for room, the channel holds `k` events, and a consumer
    that looks is given the oldest one; until it is given another, only the event in hand can
    enter, behind all the others, and it has entered as soon as the loop waits again. -/
theorem backpressure_bounds_loss (role : Role) (ipc : Bool) (config : Config)
    (before : List (Move C)) (inRuntime : Bool) (requested : Size)
    (answer : Except Failure String) (after : List (Move C)) :
    let fresh : Scene C := start role ipc config
    let whole := before ++ .listen inRuntime requested answer :: after
    let t := fresh.after whole
    let b := config.rule.effective requested (config.instancesAfter before)
    let k := max 1 (min b.toNat 65536)
    ((fresh.after before).endpoint.listen inRuntime requested answer).2.1 = .ok .ok →
      (fresh.sent whole).length ≤ (fresh.received whole).length + k ∧
      (fresh.answers whole).length ≤ (fresh.sent whole).length + 1 ∧
      (fresh.answers whole).length ≤ (fresh.received whole).length + (k + 1) ∧
      (t.endpoint.held?.isSome = true → ∀ ns, t.sent ns = [] →
        (t.history ns).countP Occurrence.isAcceptCall = 0 ∧ t.answers ns = [] ∧
          (t.after ns).endpoint.awaitsAccept = false) ∧
      (t.endpoint.isClosed = false → t.endpoint.receiverGone = false →
        (fresh.answers whole).map (Event.reporting ipc) =
          fresh.received whole ++ t.endpoint.queued ++ t.endpoint.held?.toList) ∧
      (t.endpoint.waitsForRoom = true → t.endpoint.receiverTaken = true → ∀ reader,
        ∃ oldest rest held, t.endpoint.queued = oldest :: rest ∧ rest.length + 1 = k ∧
          t.endpoint.held? = some held ∧
          (t.step (.poll reader)).2.filterMap Occurrence.received? = [oldest] ∧
          let t' := t.next (.poll reader)
          (t'.endpoint.run.2.filterMap Occurrence.sent? = [held] ∧
            t'.endpoint.run.1.queued = rest ++ [held]) ∧
          ∀ ns, t'.received ns = [] →
            let u := (t'.after ns).endpoint
            t'.sent ns <+: [held] ∧
              (u.isClosed = false → u.receiverGone = false → u.waits = true →
                t'.sent ns = [held] ∧ u.queued = rest ++ [held])) := by
  intro fresh whole t b k hok
  have hs : t.endpoint.Sound := sound_after role ipc config whole
  have hcontained : t.endpoint.Contained ((fresh.answers whole).map (Event.reporting ipc))
      (fresh.sent whole) (fresh.received whole) := contained_after role ipc config whole
  obtain ⟨ch, hch, hcapacity⟩ : ∃ ch, t.endpoint.channel = some ch ∧ ch.capacity = k := by
    obtain ⟨hconfig, hinstances⟩ := Prod.mk.inj (settings_after role ipc config before)
    have hb : (fresh.after before).endpoint.config.effectiveBacklog requested
        (fresh.after before).endpoint.pendingInstances = b := by
      rw [hconfig, hinstances]
      rfl
    have hkept := capacity_after (sound_after role ipc config before) hb hok after
    rwa [← Runs.append Scene.after] at hkept
  have hsent : (fresh.sent whole).length ≤ (fresh.received whole).length + k := by
    have hle := hcontained.inChannel ch hch
    omega
  have hanswered : (fresh.answers whole).length ≤ (fresh.sent whole).length + 1 := by
    rw [← List.length_map (Event.reporting ipc)]
    exact hcontained.length_le
  refine ⟨hsent, hanswered, by omega, ?hold, ?kept, ?blocked⟩
  case hold =>
    intro hheld ns hquiet
    obtain ⟨event, hevent⟩ := Option.isSome_iff_exists.mp hheld
    obtain ⟨hoccupied, hcalls, hanswers⟩ :=
      t.occupied_after ns hs (Endpoint.occupied_of_held? hevent) hquiet
    exact ⟨hcalls, hanswers, hoccupied.awaitsAccept⟩
  case kept =>
    intro ho hg
    exact hcontained.answered_eq (delivered_after role ipc config whole)
      (supplied_after role ipc config whole) ho hg
  case blocked =>
    intro hw htaken reader
    have hpos : 1 ≤ ch.capacity := hcapacity ▸ Nat.le_max_left ..
    obtain ⟨oldest, rest, held, hq, hlength, hheld, hpoll, hlaw⟩ :=
      sent_after_receipt role ipc config whole rfl hch hpos hw htaken reader
    refine ⟨oldest, rest, held, hq, hlength.trans hcapacity, hheld, hpoll, ?_, hlaw⟩
    refine run_after_receipt (by rw [hpoll]; exact List.cons_ne_nil oldest []) ?_
    intro ns hnone
    exact (hlaw ns hnone).2

/-- The channel's only place is taken, a failure waits for it, and a consumer comes. -/
theorem backpressure_bounds_loss_of_clogging :
    let fresh : Scene Link := start .server false singlePlace
    let t := fresh.after (clogging ++ [.takeReceiver])
    let t' := t.next (.poll .stream)
    t.endpoint.waitsForRoom = true ∧ t.endpoint.receiverTaken = true ∧
      (fresh.answers (clogging ++ [.takeReceiver])).length = 2 ∧
      (fresh.received (clogging ++ [.takeReceiver])).length = 0 ∧
      ∃ held, t.endpoint.held? = some held ∧
        t'.endpoint.run.2.filterMap Occurrence.sent? = [held] ∧
        t'.endpoint.run.1.queued = [held] := by
  intro fresh t t'
  have hblocked : t.endpoint.waitsForRoom = true := by decide
  have htaken : t.endpoint.receiverTaken = true := by decide
  obtain ⟨-, -, -, -, -, hlaw⟩ := backpressure_bounds_loss .server false singlePlace
    [.bind "/run/app.sock"] true 0 (.ok "resolved:/run/app.sock")
    (clogging.drop 2 ++ [.takeReceiver]) rfl
  obtain ⟨_, rest, held, -, hrest, hheld, -, ⟨hsent, hqueued⟩, -⟩ := hlaw hblocked htaken .stream
  obtain rfl : rest = [] := List.length_eq_zero_iff.mp (Nat.succ.inj hrest)
  exact ⟨hblocked, htaken, by decide, by decide, held, hheld, hsent, hqueued⟩

end Scene

end LocalEndpoint
