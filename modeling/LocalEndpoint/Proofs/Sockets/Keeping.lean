import LocalEndpoint.Proofs.Sockets.Effect
import Mathlib

/-! Whose file stands at the path of an open listener. Files are removed by path, in two places: a
    listen removes a socket's file that stands at its path, if its settings ask for it, and a
    listener that closes removes what stands at its path. Neither asks whose file that is. So open
    listeners lose their files exactly where somebody who may remove stale files listens at the path
    of one; and once two are open at one path, closing the first removes the second one's file. -/

namespace LocalEndpoint.Unix

namespace Host

/-- Every open listener has its own file at its path. -/
def Kept (h : Host PathMap) : Prop :=
  ∀ id path file, h.OpenAt id path file → h.stands? path = some ⟨file, true⟩

/-- Somebody who removes stale files listens at the path of an open listener. -/
def Usurps (h : Host PathMap) (d : Deed) : Prop :=
  ∃ s path id file, d = .listen s path ∧ s.removeStale = true ∧ h.OpenAt id path file

variable {h : Host PathMap} {d : Deed}

/-! ### One file -/

/-- A file that is older than every file to come stays where it is exactly as long as nobody clears
    its path. -/
theorem stands?_next_eq_iff (hk : h.listeners.keys.Nodup) (d : Deed) {path : String} {file : Nat}
    (hf : file < h.files.fresh) :
    (h.next d).stands? path = some ⟨file, true⟩ ↔
      h.stands? path = some ⟨file, true⟩ ∧ h.clears? d ≠ some path := by
  have hentry := (effect_next hk d).entry path
  rw [stands?, hentry]
  by_cases hm : h.makes? d = some path
  · have hspared := spared?_of_makes? hm
    rw [if_pos hm]
    rw [spared?] at hspared
    refine ⟨?_, ?_⟩
    · intro heq
      cases heq
      exact absurd hf (Nat.lt_irrefl _)
    · rintro ⟨hown, hc⟩
      rw [if_neg hc, hown] at hspared
      cases hspared
  · rw [if_neg hm, spared?]
    by_cases hc : h.clears? d = some path <;> simp [hc]

theorem forall_moment_concat {P : List Deed → Deed → Prop} (ds : List Deed) (d : Deed) :
    (∀ ms e, ms ++ [e] <+: ds ++ [d] → P ms e) ↔ (∀ ms e, ms ++ [e] <+: ds → P ms e) ∧ P ds d := by
  refine ⟨?_, ?_⟩
  · intro hall
    exact ⟨fun ms e he => hall ms e (he.trans (List.prefix_append ds [d])),
      hall ds d (List.prefix_refl _)⟩
  · rintro ⟨hall, hlast⟩ ms e he
    rcases List.prefix_concat_iff.mp he with heq | he
    · obtain ⟨rfl, hed⟩ := List.append_inj' heq rfl
      cases hed
      exact hlast
    · exact hall ms e he

theorem stands?_after_eq_iff (hs : h.Sound) {path : String} {file : Nat}
    (hf : file < h.files.fresh) (hown : h.stands? path = some ⟨file, true⟩) (ds : List Deed) :
    (h.after ds).stands? path = some ⟨file, true⟩ ↔
      ∀ ms d, ms ++ [d] <+: ds → (h.after ms).clears? d ≠ some path := by
  induction ds using List.reverseRecOn with
  | nil => simp [Runs.nil after, hown]
  | append_singleton ds d ih =>
    have hlate : (h.after ds).Sound ∧ file < (h.after ds).files.fresh :=
      Runs.induction after (P := fun g => g.Sound ∧ file < g.files.fresh) ⟨hs, hf⟩
        (fun g d hg => ⟨sound_next hg.1 d, Nat.lt_of_lt_of_le hg.2 (files_fresh_next hg.1.keys d)⟩)
        ds
    rw [Runs.concat after, stands?_next_eq_iff hlate.1.keys d hlate.2, ih, forall_moment_concat]

/-! ### Every open listener -/

/-- A deed that clears the path of another open listener's file listens there: whoever closes a
    listener at that path has the file himself. -/
theorem usurps_of_clears? (hs : h.Sound) (hkept : h.Kept) {id : Nat} {path : String} {file : Nat}
    (hopen : h.OpenAt id path file) (hends : d.ends id = false) (hc : h.clears? d = some path) :
    h.Usurps d := by
  obtain ⟨l, hl, hshut, hpath, hfile⟩ := openAt_iff.mp hopen
  have hclosing (i : Nat) (hi : (i == id) = false)
      (hclears : (h.bare? i).bind Listener.clears? = some path) : False := by
    obtain ⟨m, hm, hclears⟩ := Option.bind_eq_some_iff.mp hclears
    have hm' : m.shut = false ∧ m.path = path := by
      unfold Listener.clears? at hclears
      split at hclears
      · next hcond => simp at hcond hclears; exact ⟨hcond.2, hclears⟩
      · cases hclears
    have hnamed : m.file.isSome = l.file.isSome := by
      rw [hs.named i m hm, hs.named id l hl, hm'.2, hpath]
    obtain ⟨g, hg⟩ := Option.isSome_iff_exists.mp (hnamed.trans (by rw [hfile]; rfl))
    have hsame := (hkept i path g (openAt_iff.mpr ⟨m, hm, hm'.1, hm'.2, hg⟩)).symm.trans
      (hkept id path file hopen)
    have hgf : g = file := by simpa using hsame
    have hid := hs.single i id m l file hm hl (hgf ▸ hg) hfile
    simp [hid] at hi
  cases d with
  | listen s p =>
    simp only [clears?, Option.ite_none_right_eq_some, Bool.and_eq_true, Option.some.injEq] at hc
    obtain ⟨⟨hremove, -⟩, rfl⟩ := hc
    exact ⟨s, p, id, file, rfl, hremove, hopen⟩
  | close i => exact (hclosing i hends hc).elim
  | drop i => exact (hclosing i hends hc).elim
  | _ => cases hc

theorem kept_next (hs : h.Sound) (hkept : h.Kept) (hd : ¬h.Usurps d) : (h.next d).Kept := by
  intro id path file hopen
  have he := effect_next hs.keys d
  obtain ⟨l, hl, hshut, hpath, hfile⟩ := openAt_iff.mp hopen
  rcases he.bare_cases hl with ⟨rfl, ho⟩ | ⟨m, hm, rfl⟩
  · rw [← hpath]
    exact stands?_of_opens? hs.keys ho hfile
  · -- it has been open before, with the same file
    obtain ⟨hm', hends⟩ : m.shut = false ∧ d.ends id = false := by simpa using hshut
    have hbefore : h.OpenAt id path file := openAt_iff.mpr ⟨m, hm, hm', hpath, hfile⟩
    rw [stands?_next_eq_iff hs.keys d (hs.file id m file hm hfile)]
    exact ⟨hkept id path file hbefore,
      fun hc => hd (usurps_of_clears? hs hkept hbefore hends hc)⟩

theorem not_kept_of_usurps (hs : h.Sound) (hkept : h.Kept) (hd : h.Usurps d) :
    ¬(h.next d).Kept := by
  obtain ⟨s, path, id, file, rfl, hremove, hopen⟩ := hd
  obtain ⟨l, hl, hshut, hpath, hfile⟩ := openAt_iff.mp hopen
  intro hnext
  have hstill : (h.next (.listen s path)).OpenAt id path file := by
    refine openAt_iff.mpr ⟨l, ?_, hshut, hpath, hfile⟩
    have hold : id ≠ h.fresh := Nat.ne_of_lt (hs.fresh id l hl)
    rw [(effect_next hs.keys _).bare, if_neg (fun hnew => hold hnew.1), hl]
    rfl
  have hc : h.clears? (.listen s path) = some path := by
    have hsocket : FileSystem.isSocket h.files path = true := by
      have hown : h.files.entry? path = some ⟨file, true⟩ := hkept id path file hopen
      simp [FileSystem.isSocket, hown]
    rw [clears?, hremove, hsocket]
    rfl
  exact ((stands?_next_eq_iff hs.keys _ (hs.file id l file hl hfile)).mp
    (hnext id path file hstill)).2 hc

/-- When open listeners have their own files, and until when one of them has. In every run, all have
    them all the time exactly if nobody who removes stale files listens at the path of an open
    listener; and what stands at the path where a listener was opened is its file exactly as long as
    nobody clears the path. -/
theorem open_listeners_keep_files (files : PathMap) (ds : List Deed) :
    ((∀ ms, ms <+: ds → ((start files).after ms).Kept) ↔
      ∀ ms d, ms ++ [d] <+: ds → ¬((start files).after ms).Usurps d) ∧
    ∀ ms s path es id file,
      let h := (start files).after ms
      let g := h.next (.listen s path)
      ms ++ .listen s path :: es = ds →
      (h.listen s path).2 = .ok id → g.OpenAt id path file →
      (((start files).after ds).stands? path = some ⟨file, true⟩ ↔
        ∀ ns e, ns ++ [e] <+: es → (g.after ns).clears? e ≠ some path) := by
  have hsound ms : ((start files).after ms).Sound := sound_after (sound_start files) ms
  refine ⟨⟨?_, ?_⟩, ?_⟩
  · intro hkept ms d hd husurps
    have hbefore := hkept ms ((List.prefix_append ms [d]).trans hd)
    refine not_kept_of_usurps (hsound ms) hbefore husurps ?_
    rw [← Runs.concat after]
    exact hkept _ hd
  · intro hno ms
    induction ms using List.reverseRecOn with
    | nil =>
      intro _ id path file hopen
      obtain ⟨l, hl, -⟩ := hopen
      cases hl
    | append_singleton ms d ih =>
      intro hms
      rw [Runs.concat after]
      exact kept_next (hsound ms) (ih ((List.prefix_append ms [d]).trans hms)) (hno ms d hms)
  · rintro ms s path es id file h g rfl hok hopen
    have hg : g.Sound := sound_next (hsound ms) _
    obtain ⟨l, hl, hshut, hpath, hfile⟩ := openAt_iff.mp hopen
    have hown : g.stands? path = some ⟨file, true⟩ := by
      obtain ⟨-, rfl⟩ := listen_eq_ok_iff.mp hok
      rcases (effect_next (hsound ms).keys _).bare_cases hl with ⟨-, ho⟩ | ⟨m, hm, -⟩
      · rw [← hpath]
        exact stands?_of_opens? (hsound ms).keys ho hfile
      · exact absurd ((hsound ms).fresh _ m hm) (Nat.lt_irrefl _)
    rw [Runs.append after, Runs.cons after]
    exact stands?_after_eq_iff hg (hg.file id l file hl hfile) hown es

/-- A file that was left behind is replaced, and nobody loses his. -/
theorem file_left_behind_replaced :
    let h := (start {}).after [.listen ⟨false, false⟩ "a.sock", .drop 0]
    let g := h.next (.listen ⟨true, true⟩ "a.sock")
    h.stands? "a.sock" = some ⟨0, true⟩ ∧ g.Kept ∧ g.stands? "a.sock" ≠ some ⟨0, true⟩ := by
  have hnobody :
      ((start {}).after [.listen ⟨false, false⟩ "a.sock", .drop 0]).listeners.rows = [] := by cbv
  have hfirst : ¬(start {}).Usurps (.listen ⟨false, false⟩ "a.sock") := by
    rintro ⟨s, path, id, file, hd, hremove, -⟩
    cases hd
    cases hremove
  have hsecond : ¬((start {}).after [.listen ⟨false, false⟩ "a.sock"]).Usurps (.drop 0) := by
    rintro ⟨s, path, id, file, hd, -⟩
    cases hd
  have hthird : ¬((start {}).after [.listen ⟨false, false⟩ "a.sock", .drop 0]).Usurps
      (.listen ⟨true, true⟩ "a.sock") := by
    rintro ⟨s, path, id, file, -, -, l, hl, -⟩
    rw [listener?, Table.get?, hnobody] at hl
    cases hl
  have hopen : ((start {}).next (.listen ⟨false, false⟩ "a.sock")).OpenAt 0 "a.sock" 0 :=
    ⟨⟨"a.sock", some 0, false, false, true, .empty⟩, by cbv, rfl, rfl, rfl⟩
  have hclears : ((start {}).after [.listen ⟨false, false⟩ "a.sock", .drop 0]).clears?
      (.listen ⟨true, true⟩ "a.sock") = some "a.sock" := by cbv
  obtain ⟨hkept, hstays⟩ := open_listeners_keep_files {} [.listen ⟨false, false⟩ "a.sock", .drop 0,
    .listen ⟨true, true⟩ "a.sock"]
  refine ⟨by cbv, hkept.mpr ?_ _ (List.prefix_refl _), ?_⟩
  · refine (forall_moment_concat [_, _] _).mpr ⟨?_, hthird⟩
    refine (forall_moment_concat [_] _).mpr ⟨?_, hsecond⟩
    exact (forall_moment_concat [] _).mpr ⟨by simp, hfirst⟩
  · intro hold
    exact (hstays [] _ "a.sock" _ 0 0 rfl (by cbv) hopen).mp hold [.drop 0] _
      (List.prefix_refl _) hclears

/-- Two providers that remove stale files listen at one path: the second takes the place of the
    first one's file while the first is open, and when the first closes, the second one's file is
    gone while the second is open. -/
theorem file_of_open_listener_taken :
    let twice := (start {}).after
      [.listen ⟨true, true⟩ "a.sock", .listen ⟨true, true⟩ "a.sock"]
    twice.OpenAt 0 "a.sock" 0 ∧ twice.stands? "a.sock" = some ⟨1, true⟩ ∧
      (twice.next (.close 0)).OpenAt 1 "a.sock" 1 ∧
      (twice.next (.close 0)).stands? "a.sock" = none := by
  refine ⟨⟨⟨"a.sock", some 0, true, false, true, .empty⟩, by cbv, rfl, rfl, rfl⟩, by cbv,
    ⟨⟨"a.sock", some 1, true, false, true, .empty⟩, by cbv, rfl, rfl, rfl⟩, by cbv⟩

end Host

end LocalEndpoint.Unix
