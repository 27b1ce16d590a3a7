import LocalEndpoint.Proofs.Sockets.Basic

/-! What one deed does to a host, and what holds after every run. `effect_next` says of every deed
    which path it clears, where it makes a file, which listener it opens and which it shuts, and
    that nothing else shows; `sound_after` that no two listeners have one number or one file. -/

namespace LocalEndpoint.Unix

namespace Host

/-! ### Listening -/

theorem isSome_entry_of_isSocket {m : PathMap} {path : String}
    (h : FileSystem.isSocket m path = true) : (m.entry? path).isSome = true := by
  cases he : m.entry? path with
  | none => simp [FileSystem.isSocket, he] at h
  | some e => rfl

theorem clearStale_eq (h : Host PathMap) (s : Settings) (path : String) :
    ∃ files : PathMap, h.clearStale s path = .ok files ∧ files.refusal = h.files.refusal ∧
      files.fresh = h.files.fresh ∧ ∀ q, files.entry? q = h.spared? (.listen s path) q := by
  by_cases hc : (s.removeStale && FileSystem.isSocket h.files path) = true
  · have hentry : (h.files.entry? path).isSome = true :=
      isSome_entry_of_isSocket (Bool.and_eq_true_iff.mp hc).2
    obtain ⟨files, hfiles⟩ := PathMap.remove_of_entry? hentry
    obtain ⟨hfresh, hrefusal⟩ := PathMap.fresh_remove hfiles
    refine ⟨files, (if_pos hc).trans hfiles, hrefusal, hfresh, ?_⟩
    intro q
    rw [PathMap.entry?_remove hfiles q, spared?, clears?, if_pos hc]
    by_cases hq : q = path
    · simp [hq]
    · rw [if_neg (by simpa using hq), if_neg (by simpa [eq_comm] using hq)]; rfl
  · refine ⟨_, if_neg hc, rfl, rfl, ?_⟩
    intro q
    rw [spared?, clears?, if_neg hc]
    rfl

theorem bindListener_of_taken {h : Host PathMap} {path : String} (s : Settings)
    (hvalid : isSocketPath path = true) (hempty : path.isEmpty = false)
    (htaken : (h.files.refusal.isSome || (h.stands? path).isSome) = true) :
    ∃ kind, h.bindListener s path = (h, .error kind) := by
  cases hm : h.files.makeSocket path with
  | error kind =>
    refine ⟨if kind = .alreadyExists then .addrInUse else kind, ?_⟩
    by_cases hk : kind = .alreadyExists <;>
      simp [bindListener, hvalid, hempty, FileSystem.makeSocket, hm, hk]
  | ok made =>
    have hfree := (PathMap.makeSocket_isOk h.files path).mp ⟨made.1, made.2, hm⟩
    rw [← Bool.or_eq_false_iff] at hfree
    exact absurd (htaken.symm.trans hfree) (by decide)

theorem bindListener_of_free {h : Host PathMap} {path : String} (s : Settings)
    (hvalid : isSocketPath path = true) (hempty : path.isEmpty = false)
    (hfree : (h.files.refusal.isSome || (h.stands? path).isSome) = false) :
    ∃ files : PathMap, h.bindListener s path =
        ({ h with files }).addListener
          { path, file := some h.files.fresh, cleanup := s.cleanupOnClose } ∧
      files.fresh = h.files.fresh + 1 ∧
      ∀ q, files.entry? q =
        if some path = some q then some ⟨h.files.fresh, true⟩ else h.stands? q := by
  obtain ⟨file, files, hm⟩ :=
    (PathMap.makeSocket_isOk h.files path).mpr (Bool.or_eq_false_iff.mp hfree)
  obtain ⟨rfl, hfresh⟩ := PathMap.fresh_makeSocket hm
  refine ⟨files, by simp [bindListener, hvalid, hempty, FileSystem.makeSocket, hm], hfresh, ?_⟩
  intro q
  rw [PathMap.entry?_makeSocket hm]
  simp only [beq_iff_eq, Option.some.injEq, eq_comm (a := q)]
  rfl

/-- A listen fails exactly if it opens nothing, and then it has changed the files at most. -/
theorem listen_eq (h : Host PathMap) (s : Settings) (path : String) :
    ∃ files kind, h.Filed (.listen s path) files ∧
      h.listen s path =
        match h.opens? (.listen s path) with
        | some l => ({ h with files }).addListener l
        | none => ({ h with files }, .error kind) := by
  obtain ⟨files, hclear, hrefusal, hfresh, hentry⟩ := h.clearStale_eq s path
  have hlisten : h.listen s path = ({ h with files }).bindListener s path := by rw [listen, hclear]
  have hfiled (hm : h.makes? (.listen s path) = none) : h.Filed (.listen s path) files := by
    refine ⟨?_, ?_⟩
    · intro q; rw [hm, if_neg (by simp), hentry]
    · rw [hm]; exact hfresh
  cases hvalid : isSocketPath path with
  | false =>
    have ho : h.opens? (.listen s path) = none := by simp [opens?, hvalid]
    refine ⟨files, .invalidInput, hfiled (by rw [makes?, ho]; rfl), ?_⟩
    simp [hlisten, bindListener, ho, hvalid]
  | true =>
  cases hempty : path.isEmpty with
  | true =>
    have ho : h.opens? (.listen s path) =
        some { path, file := none, cleanup := s.cleanupOnClose } := by
      simp [opens?, hvalid, hempty]
    refine ⟨files, .other, hfiled (by rw [makes?, ho]; rfl), ?_⟩
    simp [hlisten, bindListener, ho, hvalid, hempty]
  | false =>
  cases htaken : h.files.refusal.isSome || (h.spared? (.listen s path) path).isSome with
  | true =>
    have ho : h.opens? (.listen s path) = none := by
      simp only [opens?, hvalid, hempty, htaken]; rfl
    obtain ⟨kind, hbind⟩ := bindListener_of_taken (h := { h with files }) s hvalid hempty
      (by rw [stands?, hrefusal, hentry, htaken])
    exact ⟨files, kind, hfiled (by rw [makes?, ho]; rfl), by rw [hlisten, hbind, ho]⟩
  | false =>
    have ho : h.opens? (.listen s path) =
        some { path, file := some h.files.fresh, cleanup := s.cleanupOnClose } := by
      simp only [opens?, hvalid, hempty, htaken]; rfl
    have hm : h.makes? (.listen s path) = some path := by rw [makes?, ho]; rfl
    obtain ⟨files', hbind, hfresh', hentry'⟩ :=
      bindListener_of_free (h := { h with files }) s hvalid hempty
        (by rw [stands?, hrefusal, hentry, htaken])
    refine ⟨files', .other, ⟨?_, ?_⟩, by rw [hlisten, hbind, ho, hfresh]⟩
    · intro q; rw [hentry', hm, hfresh, stands?, hentry]
    · rw [hfresh', hfresh, hm]; rfl

/-- What a deed opens is a listener at the path where somebody listens, with a new file if the path
    has a name, and then nothing stands there. -/
theorem opens?_eq_some {h : Host PathMap} {d : Deed} {l : Listener} (ho : h.opens? d = some l) :
    ∃ s path, d = .listen s path ∧ isSocketPath path = true ∧
      (path.isEmpty = true ∧ l = { path, file := none, cleanup := s.cleanupOnClose } ∨
        path.isEmpty = false ∧ h.spared? d path = none ∧
          l = { path, file := some h.files.fresh, cleanup := s.cleanupOnClose }) := by
  cases d with
  | listen s path =>
    simp only [opens?] at ho
    split at ho
    · cases ho
    · next hvalid =>
      refine ⟨s, path, rfl, by simpa using hvalid, ?_⟩
      split at ho
      · next hempty => cases ho; exact .inl ⟨hempty, rfl⟩
      · next hempty =>
        split at ho <;> cases ho
        next hfree =>
        simp only [Bool.or_eq_true, not_or, Bool.not_eq_true, Option.isSome_eq_false_iff,
          Option.isNone_iff_eq_none] at hfree
        exact .inr ⟨by simpa using hempty, hfree.2, rfl⟩
  | _ => cases ho

theorem bare_of_opens? {h : Host PathMap} {d : Deed} {l : Listener} (ho : h.opens? d = some l) :
    l.bare = l := by
  obtain ⟨s, path, -, -, ⟨-, rfl⟩ | ⟨-, -, rfl⟩⟩ := opens?_eq_some ho <;> rfl

/-! ### Tables of listeners -/

section

variable {F : Type}

theorem listener?_setListener (h : Host F) (id : Nat) (l : Listener) (i : Nat) :
    (h.setListener id l).listener? i = if i = id then some l else h.listener? i := by
  rw [setListener, listener?, Table.get?_put]
  simp only [beq_iff_eq]
  rfl

theorem bare?_setListener (h : Host F) (id : Nat) (l : Listener) (i : Nat) :
    (h.setListener id l).bare? i = if i = id then some l.bare else h.bare? i := by
  rw [bare?, listener?_setListener]
  split <;> rfl

/-- What waits in a queue does not show. -/
theorem bare?_setListener_of_bare {h : Host F} {id : Nat} {l m : Listener}
    (hl : h.listener? id = some l) (hm : m.bare = l.bare) (i : Nat) :
    (h.setListener id m).bare? i = h.bare? i := by
  rw [bare?_setListener]
  split
  · next hi => rw [hi, bare?, hl, hm]; rfl
  · rfl

theorem nodup_setListener {h : Host F} (hk : h.listeners.keys.Nodup) (id : Nat) (l : Listener) :
    (h.setListener id l).listeners.keys.Nodup :=
  Table.nodup_keys_put hk id l

theorem listener?_of_boundTo? {h : Host F} (hk : h.listeners.keys.Nodup) {file id : Nat}
    {l : Listener} (hb : h.boundTo? file = some (id, l)) : h.listener? id = some l :=
  Table.get?_of_mem hk (List.mem_of_find?_eq_some hb)

end

/-! ### Each deed -/

variable {h : Host PathMap}

theorem effect_listen (hk : h.listeners.keys.Nodup) (s : Settings) (path : String) :
    h.Effect (.listen s path) (h.next (.listen s path)) := by
  obtain ⟨files, kind, hfiled, hlisten⟩ := h.listen_eq s path
  rw [next, hlisten]
  cases ho : h.opens? (.listen s path) with
  | none =>
    refine ⟨hfiled, ?_, by simp [ho], hk⟩
    intro id
    simp [ho, Deed.leaves, bare?, listener?]
  | some l =>
    refine ⟨hfiled, ?_, by simp [ho, addListener], nodup_setListener hk _ _⟩
    intro id
    have hset := bare?_setListener { h with files } h.fresh l id
    rw [bare_of_opens? ho] at hset
    simpa [ho, Deed.leaves, addListener, bare?, listener?] using hset

/-- Two hosts that differ in queues and streams at most. -/
structure Quiet (h g : Host PathMap) : Prop where
  files : g.files = h.files
  fresh : g.fresh = h.fresh
  bare : ∀ id, g.bare? id = h.bare? id
  keys : g.listeners.keys.Nodup

theorem quiet_self (hk : h.listeners.keys.Nodup) : Quiet h h := ⟨rfl, rfl, fun _ => rfl, hk⟩

theorem quiet_setListener (hk : h.listeners.keys.Nodup) {id : Nat} {l m : Listener}
    (hl : h.listener? id = some l) (hm : m.bare = l.bare) : Quiet h (h.setListener id m) :=
  ⟨rfl, rfl, bare?_setListener_of_bare hl hm, nodup_setListener hk id m⟩

theorem Quiet.effect {g : Host PathMap} (hq : Quiet h g) {d : Deed} (ho : h.opens? d = none)
    (hc : h.clears? d = none) (hl : ∀ id l, d.leaves id l = some l) : h.Effect d g := by
  have hm : h.makes? d = none := by rw [makes?, ho]; rfl
  refine ⟨⟨?_, ?_⟩, ?_, ?_, hq.keys⟩
  · intro q; rw [hq.files, hm, if_neg (by simp), spared?, hc, if_neg (by simp)]; rfl
  · rw [hq.files, hm]; rfl
  · intro id; simp [hq.bare, ho, hl]
  · rw [hq.fresh, ho]; rfl

theorem effect_refuse (hk : h.listeners.keys.Nodup) (refusal : Option FaultKind) :
    h.Effect (.refuse refusal) (h.next (.refuse refusal)) := by
  refine ⟨⟨fun _ => rfl, rfl⟩, ?_, rfl, hk⟩
  intro id
  have hsame : (h.next (.refuse refusal)).bare? id = h.bare? id := rfl
  rw [hsame]
  cases h.bare? id <;> simp [opens?, Deed.leaves]

theorem effect_connect (hk : h.listeners.keys.Nodup) (path : String) :
    h.Effect (.connect path) (h.next (.connect path)) := by
  refine Quiet.effect ?_ rfl rfl fun _ _ => rfl
  rw [next]
  split
  · next g c hg =>
    unfold connect at hg
    split at hg
    · cases hg
    · split at hg
      · cases hg
      · split at hg
        · cases hg
        · next id l hb =>
          cases hg
          have hq := quiet_setListener hk (listener?_of_boundTo? hk hb)
            (m := { l with queue := l.queue.push ⟨h.streams.fresh + 1, l.acceptedAddress⟩ }) rfl
          exact ⟨rfl, rfl, hq.bare, hq.keys⟩
  · exact quiet_self hk

theorem effect_accept (hk : h.listeners.keys.Nodup) (id : Nat) :
    h.Effect (.accept id) (h.next (.accept id)) := by
  refine Quiet.effect ?_ rfl rfl fun _ _ => rfl
  rw [next, accept?]
  cases hl : h.listener? id with
  | none => exact quiet_self hk
  | some l =>
    cases hs : l.shut with
    | true => simpa [hs] using quiet_self hk
    | false =>
      cases hp : l.queue.pop? with
      | none => simpa [hs, hp] using quiet_self hk
      | some p => simpa [hs, hp] using quiet_setListener hk hl (m := { l with queue := p.2 }) rfl

theorem tryRemove_eq (h : Host PathMap) (path : String) :
    ∃ files : PathMap, h.tryRemove path = { h with files } ∧ files.fresh = h.files.fresh ∧
      ∀ q, files.entry? q = if some path = some q then none else h.stands? q := by
  cases hr : h.files.remove path with
  | ok files =>
    refine ⟨files, by simp [tryRemove, FileSystem.remove, hr], (PathMap.fresh_remove hr).1, ?_⟩
    intro q
    rw [PathMap.entry?_remove hr]
    simp only [beq_iff_eq, Option.some.injEq, eq_comm (a := q)]
    rfl
  | error kind =>
    refine ⟨h.files, by simp [tryRemove, FileSystem.remove, hr], rfl, ?_⟩
    intro q
    split
    · next hq =>
      cases hq
      cases he : h.files.entry? path with
      | none => rfl
      | some e =>
        obtain ⟨n, hn⟩ := PathMap.remove_of_entry? (Option.isSome_of_eq_some he)
        rw [hn] at hr
        cases hr
    · rfl

theorem close_of_isShut {id : Nat} (hs : h.isShut id = true) :
    h.close id = (h, some .listenerClosed) := by
  rw [close]
  cases hl : h.listener? id with
  | none => rfl
  | some l =>
    have hshut : l.shut = true := by simpa [isShut, bare?, hl, Listener.bare] using hs
    simp [hshut]

theorem close_of_open {id : Nat} {l : Listener} (hl : h.listener? id = some l)
    (hs : l.shut = false) :
    h.close id =
      (if l.cleanup then (h.setListener id { l with shut := true }).tryRemove l.path
        else h.setListener id { l with shut := true }, none) := by
  simp [close, hl, hs]

/-- The first close shuts a listener, and clears its path if its settings ask for that. -/
theorem close_of_not_isShut {id : Nat} (hs : h.isShut id = false) :
    ∃ l files, h.listener? id = some l ∧
      h.close id = ({ h.setListener id { l with shut := true } with files }, none) ∧
      files.fresh = h.files.fresh ∧ ∀ q, files.entry? q = h.spared? (.close id) q := by
  cases hl : h.listener? id with
  | none => simp [isShut, bare?, hl] at hs
  | some l =>
    have hshut : l.shut = false := by simpa [isShut, bare?, hl, Listener.bare] using hs
    have hc : h.clears? (.close id) = if l.cleanup then some l.path else none := by
      simp [clears?, bare?, hl, Listener.bare, Listener.clears?, hshut]
    cases hcleanup : l.cleanup with
    | true =>
      obtain ⟨files, hremove, hfresh, hentry⟩ :=
        tryRemove_eq (h.setListener id { l with shut := true }) l.path
      refine ⟨l, files, rfl, ?_, hfresh, ?_⟩
      · rw [close_of_open hl hshut, if_pos hcleanup, hremove]
      · intro q
        rw [hentry, spared?, hc, if_pos hcleanup]
        rfl
    | false =>
      refine ⟨l, h.files, rfl, ?_, rfl, ?_⟩
      · rw [close_of_open hl hshut, if_neg (by simp [hcleanup])]
        rfl
      · intro q
        rw [spared?, hc, hcleanup]
        rfl

theorem filed_close (id : Nat) : h.Filed (.close id) (h.close id).1.files := by
  cases hs : h.isShut id with
  | true =>
    rw [close_of_isShut hs]
    have hc : h.clears? (.close id) = none := by
      cases hb : h.bare? id with
      | none => simp [clears?, hb]
      | some l =>
        have hshut : l.shut = true := by simpa [isShut, hb] using hs
        simp [clears?, hb, Listener.clears?, hshut]
    refine ⟨?_, rfl⟩
    intro q
    rw [spared?, hc]
    rfl
  | false =>
    obtain ⟨l, files, -, hclose, hfresh, hentry⟩ := close_of_not_isShut hs
    rw [hclose]
    exact ⟨hentry, hfresh⟩

theorem bare?_close (id i : Nat) : (h.close id).1.bare? i =
    (h.bare? i).map fun l => if id = i then { l with shut := true } else l := by
  cases hs : h.isShut id with
  | true =>
    rw [close_of_isShut hs]
    by_cases hi : id = i
    · cases hb : h.bare? i with
      | none => rfl
      | some l =>
        have hshut : l.shut = true := by simpa [isShut, hi, hb] using hs
        simp [hi, ← hshut]
    · simp [hi]
  | false =>
    obtain ⟨l, files, hl, hclose, -, -⟩ := close_of_not_isShut hs
    have hset := bare?_setListener h id { l with shut := true } i
    rw [hclose]
    refine hset.trans ?_
    by_cases hi : i = id
    · rw [if_pos hi, hi, bare?, hl]
      simp [Listener.bare]
    · simp [hi, Ne.symm hi]

theorem fresh_close (id : Nat) : (h.close id).1.fresh = h.fresh := by
  cases hs : h.isShut id with
  | true => rw [close_of_isShut hs]
  | false =>
    obtain ⟨l, files, -, hclose, -, -⟩ := close_of_not_isShut hs
    rw [hclose]
    rfl

theorem nodup_close (hk : h.listeners.keys.Nodup) (id : Nat) :
    (h.close id).1.listeners.keys.Nodup := by
  cases hs : h.isShut id with
  | true => rwa [close_of_isShut hs]
  | false =>
    obtain ⟨l, files, -, hclose, -, -⟩ := close_of_not_isShut hs
    rw [hclose]
    exact nodup_setListener hk id _

theorem effect_close (hk : h.listeners.keys.Nodup) (id : Nat) :
    h.Effect (.close id) (h.next (.close id)) := by
  refine ⟨filed_close id, ?_, fresh_close id, nodup_close hk id⟩
  intro i
  refine (bare?_close id i).trans ?_
  cases h.bare? i <;> simp [opens?, Deed.leaves]

theorem effect_drop (hk : h.listeners.keys.Nodup) (id : Nat) :
    h.Effect (.drop id) (h.next (.drop id)) := by
  have hfiled := h.filed_close id
  refine ⟨⟨hfiled.entry, hfiled.fresh⟩, ?_, fresh_close id,
    Table.nodup_keys_erase (nodup_close hk id) id⟩
  intro i
  have herase : (h.next (.drop id)).bare? i = if i = id then none else (h.close id).1.bare? i := by
    have hget := Table.get?_erase (h.close id).1.listeners id i
    simp only [beq_iff_eq] at hget
    rw [bare?, listener?, next, dropListener, hget]
    split <;> rfl
  rw [herase, bare?_close]
  by_cases hi : i = id
  · cases h.bare? i <;> simp [opens?, Deed.leaves, hi]
  · cases h.bare? i <;> simp [opens?, Deed.leaves, hi, Ne.symm hi]

/-- What every deed does. -/
theorem effect_next (hk : h.listeners.keys.Nodup) (d : Deed) : h.Effect d (h.next d) := by
  cases d with
  | listen s path => exact effect_listen hk s path
  | refuse refusal => exact effect_refuse hk refusal
  | connect path => exact effect_connect hk path
  | accept id => exact effect_accept hk id
  | close id => exact effect_close hk id
  | drop id => exact effect_drop hk id

variable {d : Deed}

theorem opens?_fields {l : Listener} (ho : h.opens? d = some l) :
    l.shut = false ∧
      (l.path.isEmpty = true ∧ l.file = none ∧ h.makes? d = none ∨
        l.path.isEmpty = false ∧ l.file = some h.files.fresh ∧ h.makes? d = some l.path ∧
          h.spared? d l.path = none) := by
  have hm : h.makes? d = l.file.map fun _ => l.path := by rw [makes?, ho]; rfl
  rw [hm]
  obtain ⟨s, path, -, -, ⟨hempty, rfl⟩ | ⟨hempty, hfree, rfl⟩⟩ := opens?_eq_some ho
  · exact ⟨rfl, .inl ⟨hempty, rfl, rfl⟩⟩
  · exact ⟨rfl, .inr ⟨hempty, rfl, rfl, hfree⟩⟩

theorem opens?_listen {s : Settings} {path : String} {l : Listener}
    (ho : h.opens? (.listen s path) = some l) :
    isSocketPath path = true ∧ l.path = path ∧ l.cleanup = s.cleanupOnClose := by
  obtain ⟨s', path', hd, hvalid, ⟨-, rfl⟩ | ⟨-, -, rfl⟩⟩ := opens?_eq_some ho <;> cases hd <;>
    exact ⟨hvalid, rfl, rfl⟩

/-- Whoever listens where nothing stands opens a listener, unless the system refuses. -/
theorem isSome_opens?_of_free {s : Settings} {path : String} (hvalid : isSocketPath path = true)
    (hrefusal : h.files.refusal = none) (hfree : h.stands? path = none) :
    (h.opens? (.listen s path)).isSome = true := by
  have hspared : h.spared? (.listen s path) path = none := by
    rw [spared?, hfree, ite_self]
  cases hempty : path.isEmpty <;> simp [opens?, hvalid, hempty, hrefusal, hspared]

theorem listen_eq_ok_iff {s : Settings} {path : String} {id : Nat} :
    (h.listen s path).2 = .ok id ↔
      (h.opens? (.listen s path)).isSome = true ∧ id = h.fresh := by
  obtain ⟨files, kind, -, hlisten⟩ := h.listen_eq s path
  rw [hlisten]
  cases h.opens? (.listen s path) with
  | none => simp
  | some l => simp [addListener, eq_comm]

/-- A socket's file is made only where nothing stands. -/
theorem spared?_of_makes? {path : String} (hm : h.makes? d = some path) :
    h.spared? d path = none := by
  obtain ⟨l, ho, hl⟩ := Option.bind_eq_some_iff.mp hm
  obtain ⟨-, ⟨-, -, hn⟩ | ⟨-, -, hp, hs⟩⟩ := opens?_fields ho
  · rw [hn] at hm; cases hm
  · rw [hp] at hm; cases hm; exact hs

theorem Effect.bare_cases {g : Host PathMap} (he : h.Effect d g) {id : Nat} {l : Listener}
    (hl : g.bare? id = some l) :
    id = h.fresh ∧ h.opens? d = some l ∨
      ∃ m, h.bare? id = some m ∧ l = { m with shut := m.shut || d.ends id } := by
  rw [he.bare] at hl
  split at hl
  · next hnew => exact .inl ⟨hnew.1, hl⟩
  · obtain ⟨m, hm, hleft⟩ := Option.bind_eq_some_iff.mp hl
    exact .inr ⟨m, hm, Deed.eq_of_leaves hleft⟩

theorem openAt_iff {id : Nat} {path : String} {file : Nat} :
    h.OpenAt id path file ↔
      ∃ l, h.bare? id = some l ∧ l.shut = false ∧ l.path = path ∧ l.file = some file := by
  refine ⟨?_, ?_⟩
  · rintro ⟨l, hl, hfields⟩
    exact ⟨l.bare, by rw [bare?, hl]; rfl, hfields⟩
  · rintro ⟨l, hl, hfields⟩
    obtain ⟨m, hm, rfl⟩ := Option.map_eq_some_iff.mp hl
    exact ⟨m, hm, hfields⟩

/-- A new listener's file stands at its path. -/
theorem stands?_of_opens? (hk : h.listeners.keys.Nodup) {l : Listener} {file : Nat}
    (ho : h.opens? d = some l) (hfile : l.file = some file) :
    (h.next d).stands? l.path = some ⟨file, true⟩ := by
  obtain ⟨-, ⟨-, hnone, -⟩ | ⟨-, hnew, hmakes, -⟩⟩ := opens?_fields ho
  · rw [hnone] at hfile; cases hfile
  · rw [hnew] at hfile; cases hfile
    rw [stands?, (effect_next hk d).entry, hmakes, if_pos rfl]

/-! ### Every run -/

/-- What holds of every host that deeds lead to. -/
structure Sound (h : Host PathMap) : Prop where
  keys : h.listeners.keys.Nodup
  fresh : ∀ id l, h.bare? id = some l → id < h.fresh
  /-- A listener has a file unless its path is empty. -/
  named : ∀ id l, h.bare? id = some l → l.file.isSome = !l.path.isEmpty
  file : ∀ id l f, h.bare? id = some l → l.file = some f → f < h.files.fresh
  /-- No two listeners have the same file. -/
  single : ∀ i j l m f, h.bare? i = some l → h.bare? j = some m → l.file = some f →
    m.file = some f → i = j

theorem sound_start (files : PathMap) : (start files).Sound where
  keys := List.nodup_nil
  fresh id l hl := by simp [start, bare?, listener?] at hl
  named id l hl := by simp [start, bare?, listener?] at hl
  file id l f hl := by simp [start, bare?, listener?] at hl
  single i j l m f hl := by simp [start, bare?, listener?] at hl

theorem fresh_next (hk : h.listeners.keys.Nodup) (d : Deed) : h.fresh ≤ (h.next d).fresh := by
  rw [(effect_next hk d).fresh']
  split
  · exact Nat.le_succ _
  · exact Nat.le_refl _

theorem files_fresh_next (hk : h.listeners.keys.Nodup) (d : Deed) :
    h.files.fresh ≤ (h.next d).files.fresh := by
  rw [(effect_next hk d).fresh]
  split
  · exact Nat.le_succ _
  · exact Nat.le_refl _

theorem sound_next (hs : h.Sound) (d : Deed) : (h.next d).Sound := by
  have he := effect_next hs.keys d
  have hnewFile {l : Listener} {f : Nat} (ho : h.opens? d = some l) (hf : l.file = some f) :
      f = h.files.fresh ∧ h.files.fresh < (h.next d).files.fresh := by
    obtain ⟨-, ⟨-, hn, -⟩ | ⟨-, hf', hm, -⟩⟩ := opens?_fields ho
    · rw [hn] at hf; cases hf
    · rw [hf'] at hf; cases hf
      exact ⟨rfl, by rw [he.fresh, hm]; exact Nat.lt_succ_self _⟩
  refine ⟨he.keys, ?_, ?_, ?_, ?_⟩
  · intro id l hl
    rcases he.bare_cases hl with ⟨rfl, ho⟩ | ⟨m, hm, -⟩
    · rw [he.fresh', ho]; exact Nat.lt_succ_self _
    · exact Nat.lt_of_lt_of_le (hs.fresh id m hm) (fresh_next hs.keys d)
  · intro id l hl
    rcases he.bare_cases hl with ⟨-, ho⟩ | ⟨m, hm, rfl⟩
    · obtain ⟨-, ⟨hp, hf, -⟩ | ⟨hp, hf, -⟩⟩ := opens?_fields ho <;> rw [hp, hf] <;> rfl
    · exact hs.named id m hm
  · intro id l f hl hf
    rcases he.bare_cases hl with ⟨-, ho⟩ | ⟨m, hm, rfl⟩
    · obtain ⟨rfl, hlt⟩ := hnewFile ho hf
      exact hlt
    · exact Nat.lt_of_lt_of_le (hs.file id m f hm hf) (files_fresh_next hs.keys d)
  · intro i j l m f hl hm hlf hmf
    rcases he.bare_cases hl with ⟨hi, ho⟩ | ⟨l', hl', rfl⟩ <;>
      rcases he.bare_cases hm with ⟨hj, ho'⟩ | ⟨m', hm', rfl⟩
    · rw [hi, hj]
    · have hlt := hs.file j m' f hm' hmf
      rw [(hnewFile ho hlf).1] at hlt
      exact absurd hlt (Nat.lt_irrefl _)
    · have hlt := hs.file i l' f hl' hlf
      rw [(hnewFile ho' hmf).1] at hlt
      exact absurd hlt (Nat.lt_irrefl _)
    · exact hs.single i j l' m' f hl' hm' hlf hmf

theorem sound_after (hs : h.Sound) (ds : List Deed) : (h.after ds).Sound :=
  Runs.induction after hs (fun _ d hg => sound_next hg d) ds

end Host

end LocalEndpoint.Unix
