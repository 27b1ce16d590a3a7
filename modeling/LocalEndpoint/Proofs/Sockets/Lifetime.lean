import LocalEndpoint.Proofs.Sockets.Effect
import Mathlib.Data.List.Induction

/-! The life of one listener, whoever holds it and whatever else is done on its host. It ends with
    the first deed that closes it or lets go of it, and nothing but that deed, of all that is done
    with it, removes a file. -/

namespace LocalEndpoint.Unix

theorem Listener.clears?_eq_some_iff {l : Listener} {path : String} :
    l.clears? = some path ↔ l.cleanup = true ∧ l.shut = false ∧ l.path = path := by
  simp [clears?, and_assoc]

namespace Deed

theorem ends_of_leaves_eq_none {d : Deed} {id : Nat} {l : Listener} (h : d.leaves id l = none) :
    d.ends id = true := by
  cases d with
  | drop i =>
    by_cases hi : i = id
    · simp [ends, hi]
    · simp [leaves, hi] at h
  | _ => cases h

theorem target?_of_ends {d : Deed} {id : Nat} (h : d.ends id = true) : d.target? = some id := by
  cases d <;> simp_all [ends, target?]

end Deed

namespace Host

variable {h : Host PathMap} {id : Nat} {l : Listener}

/-! ### What can be asked of a listener -/

theorem snd_close (id : Nat) :
    (h.close id).2 = if h.isShut id then some .listenerClosed else none := by
  cases hs : h.isShut id with
  | true => rw [close_of_isShut hs]; rfl
  | false =>
    obtain ⟨l, files, -, hclose, -⟩ := close_of_not_isShut hs
    rw [hclose]
    rfl

theorem accept?_eq_closed_iff {F : Type} {h : Host F} {id : Nat} :
    h.accept? id = some (h, .error .listenerClosed) ↔ h.isShut id = true := by
  rw [accept?, isShut, bare?]
  cases h.listener? id with
  | none => simp
  | some l => cases hs : l.shut <;> simp [Listener.bare, hs]

/-! ### How long it lives -/

theorem isShut_next (hs : h.Sound) (d : Deed) (hid : id < h.fresh) :
    (h.next d).isShut id = (h.isShut id || d.ends id) := by
  have hbare := (effect_next hs.keys d).bare id
  rw [if_neg (fun hnew => Nat.ne_of_lt hid hnew.1)] at hbare
  rw [isShut, isShut, hbare]
  cases hl : h.bare? id with
  | none => rfl
  | some l =>
    cases hd : d.leaves id l with
    | none => simp [hd, Deed.ends_of_leaves_eq_none hd]
    | some m => simp [hd, Deed.eq_of_leaves hd]

/-- A listener that is there is never another one later. -/
theorem bare?_next (hs : h.Sound) (d : Deed) (hid : id < h.fresh)
    (hl : ∀ m, h.bare? id = some m → m = { l with shut := m.shut }) :
    ∀ m, (h.next d).bare? id = some m → m = { l with shut := m.shut } := by
  intro m hm
  rcases (effect_next hs.keys d).bare_cases hm with ⟨rfl, -⟩ | ⟨k, hk, rfl⟩
  · exact absurd hid (Nat.lt_irrefl _)
  · rw [hl k hk]

/-- What is known of a listener all its life: it was opened as `l`, and it is shut once `gone`. -/
structure Lives (h : Host PathMap) (id : Nat) (l : Listener) (gone : Bool) : Prop where
  sound : h.Sound
  old : id < h.fresh
  same : ∀ m, h.bare? id = some m → m = { l with shut := m.shut }
  shut : h.isShut id = gone

theorem lives_of_bare? (hs : h.Sound) (hl : h.bare? id = some l) (hopen : l.shut = false) :
    h.Lives id l false where
  sound := hs
  old := hs.fresh id l hl
  same m hm := by rw [hl] at hm; cases hm; rfl
  shut := by rw [isShut, hl]; exact hopen

theorem Lives.next {gone : Bool} (hl : h.Lives id l gone) (d : Deed) :
    (h.next d).Lives id l (gone || d.ends id) where
  sound := sound_next hl.sound d
  old := Nat.lt_of_lt_of_le hl.old (fresh_next hl.sound.keys d)
  same := bare?_next hl.sound d hl.old hl.same
  shut := by rw [isShut_next hl.sound d hl.old, hl.shut]

theorem Lives.after {gone : Bool} (hl : h.Lives id l gone) (ds : List Deed) :
    (h.after ds).Lives id l (gone || ds.any (·.ends id)) := by
  induction ds generalizing h gone with
  | nil => simpa [Runs.nil Host.after] using hl
  | cons d ds ih => simpa [Runs.cons Host.after, Bool.or_assoc] using ih (hl.next d)

/-- As long as it lives it is as it was opened. -/
theorem Lives.bare?_eq (hl : h.Lives id l false) (hopen : l.shut = false) :
    h.bare? id = some l := by
  have hshut := hl.shut
  rw [isShut] at hshut
  cases hb : h.bare? id with
  | none => rw [hb] at hshut; cases hshut
  | some m =>
    have hm : m.shut = l.shut := by simpa [hb, hopen] using hshut
    rw [hl.same m hb, hm]

/-! ### What it does to files -/

/-- Of all that is done with a listener, only what ends it touches a file: the one at its path, if
    its settings ask for that. -/
theorem Lives.stands?_next {gone : Bool} (hl : h.Lives id l gone) (hopen : l.shut = false)
    {d : Deed} (hd : d.target? = some id) (q : String) :
    (h.next d).stands? q =
      if d.ends id = true ∧ gone = false ∧ l.cleanup = true ∧ l.path = q then none
      else h.stands? q := by
  have hclears : (h.bare? id).bind Listener.clears? = some q ↔
      gone = false ∧ l.cleanup = true ∧ l.path = q := by
    cases gone with
    | false => simp [hl.bare?_eq hopen, Listener.clears?_eq_some_iff, hopen]
    | true =>
      have hshut := hl.shut
      cases hb : h.bare? id with
      | none => simp
      | some m =>
        have hm : m.shut = true := by simpa [isShut, hb] using hshut
        simp [Listener.clears?_eq_some_iff, hm]
  have hentry := (effect_next hl.sound.keys d).entry q
  rw [stands?, hentry]
  cases d with
  | accept i => simp [makes?, opens?, spared?, clears?, Deed.ends]
  | close i | drop i =>
    cases hd
    simp only [makes?, opens?, spared?, clears?, Deed.ends, hclears, beq_self_eq_true, true_and]
    rfl
  | _ => cases hd

/-- What has ended touches no file any more. -/
theorem Lives.stands?_next_of_gone (hl : h.Lives id l true) (hopen : l.shut = false) {d : Deed}
    (hd : d.target? = some id) (q : String) : (h.next d).stands? q = h.stands? q := by
  rw [hl.stands?_next hopen hd, if_neg (by simp)]

/-- At most one deed done with a listener changes what stands anywhere. -/
theorem Lives.moment_unique (hl : h.Lives id l false) (hopen : l.shut = false) {ds : List Deed}
    {ms ns : List Deed} {d e : Deed} (hms : ms ++ [d] <+: ds) (hns : ns ++ [e] <+: ds)
    (hd : d.target? = some id) (he : e.target? = some id)
    (hdc : ((h.after ms).next d).stands? ≠ (h.after ms).stands?)
    (hec : ((h.after ns).next e).stands? ≠ (h.after ns).stands?) : ms = ns := by
  -- a change ends the listener, and nothing has ended it before
  have hfirst {ms : List Deed} {d : Deed} (hd : d.target? = some id)
      (hc : ((h.after ms).next d).stands? ≠ (h.after ms).stands?) :
      d.ends id = true ∧ ms.any (·.ends id) = false := by
    have hlife := hl.after ms
    rw [Bool.false_or] at hlife
    obtain ⟨q, hq⟩ := Function.ne_iff.mp hc
    rw [hlife.stands?_next hopen hd] at hq
    by_contra hno
    refine hq (if_neg fun hcond => hno ⟨hcond.1, hcond.2.1⟩)
  have hlt {ms ns : List Deed} {d e : Deed} (hms : ms ++ [d] <+: ds) (hns : ns ++ [e] <+: ds)
      (hd : d.ends id = true) (he : ns.any (·.ends id) = false) : ns.length ≤ ms.length := by
    by_contra hlen
    have hpart : ms ++ [d] <+: ns := by
      refine List.prefix_of_prefix_length_le hms ((List.prefix_append ns [e]).trans hns) ?_
      rw [List.length_append, List.length_singleton]
      omega
    have hany : ns.any (·.ends id) = true :=
      List.any_eq_true.mpr ⟨d, hpart.subset (by simp), hd⟩
    rw [he] at hany
    cases hany
  have hlen := Nat.le_antisymm (hlt hns hms (hfirst he hec).1 (hfirst hd hdc).2)
    (hlt hms hns (hfirst hd hdc).1 (hfirst he hec).2)
  exact (List.prefix_of_prefix_length_le ((List.prefix_append ms [d]).trans hms)
    ((List.prefix_append ns [e]).trans hns) (Nat.le_of_eq hlen)).eq_of_length hlen

end Host

end LocalEndpoint.Unix
