/-! Runs. Whatever goes on step by step has runs: lists of steps, taken one by one. What is said
    here of runs holds for all that has them (`Runs`): a retry that is asked for delays, an endpoint
    among those who act on it, with a clock or without, or the sockets of a host. What a run shows
    is gathered step by step (`gather`). -/

namespace LocalEndpoint

variable {S A : Type}

/-- `after` is where runs lead to, whose steps `next` takes. -/
class Runs (after : S → List A → S) (next : outParam (S → A → S)) : Prop where
  eq_foldl : ∀ s as, after s as = as.foldl next s

/-- What a run shows through `f`, which looks at each state and the step taken from it. -/
def gather {β : Type} (next : S → A → S) (f : S → A → List β) : S → List A → List β
  | _, [] => []
  | s, a :: as => f s a ++ gather next f (next s a) as

variable (after : S → List A → S) {next : S → A → S}

namespace Runs

variable [r : Runs after next]

include r

theorem nil (s : S) : after s [] = s := r.eq_foldl s []

theorem cons (s : S) (a : A) (as : List A) : after s (a :: as) = after (next s a) as :=
  (r.eq_foldl s (a :: as)).trans (r.eq_foldl (next s a) as).symm

theorem append (s : S) (as bs : List A) : after s (as ++ bs) = after (after s as) bs := by
  rw [r.eq_foldl, r.eq_foldl, r.eq_foldl, List.foldl_append]

theorem concat (s : S) (as : List A) (a : A) : after s (as ++ [a]) = next (after s as) a := by
  rw [append after, cons after, nil after]

/-- What holds at the start and is kept by every step holds after every run. -/
theorem induction {P : S → Prop} {s : S} (h : P s) (hstep : ∀ t a, P t → P (next t a))
    (as : List A) : P (after s as) := by
  induction as generalizing s with
  | nil => rwa [nil after]
  | cons a as ih =>
    rw [cons after]
    exact ih (hstep s a h)

end Runs

section

variable {β γ : Type}

theorem gather_append [Runs after next] (f : S → A → List β) (s : S) (as bs : List A) :
    gather next f s (as ++ bs) = gather next f s as ++ gather next f (after s as) bs := by
  induction as generalizing s with
  | nil => rw [Runs.nil after]; rfl
  | cons a as ih =>
    rw [List.cons_append, gather, gather, ih, List.append_assoc, Runs.cons after]

theorem gather_concat [Runs after next] (f : S → A → List β) (s : S) (as : List A) (a : A) :
    gather next f s (as ++ [a]) = gather next f s as ++ f (after s as) a := by
  rw [gather_append after, gather, gather, List.append_nil]

theorem prefix_gather [Runs after next] (f : S → A → List β) (s : S) {as bs : List A}
    (h : as <+: bs) : gather next f s as <+: gather next f s bs := by
  obtain ⟨_, rfl⟩ := h
  exact ⟨_, (gather_append after f s as _).symm⟩

/-- Whatever a run shows, one of its steps shows. -/
theorem exists_of_mem_gather [Runs after next] {f : S → A → List β} {s : S} {x : β} {as : List A}
    (h : x ∈ gather next f s as) : ∃ bs a, bs ++ [a] <+: as ∧ x ∈ f (after s bs) a := by
  induction as generalizing s with
  | nil => cases h
  | cons a as ih =>
    rcases List.mem_append.mp h with hfirst | hrest
    · exact ⟨[], a, List.prefix_append [a] as, by rwa [Runs.nil after]⟩
    · obtain ⟨bs, b, hbs, hx⟩ := ih hrest
      exact ⟨a :: bs, b, List.cons_prefix_cons.mpr ⟨rfl, hbs⟩, by rwa [Runs.cons after]⟩

/-- Whatever is done to a list part by part can be done to each step's part. -/
theorem gather_hom (f : S → A → List β) {g : List β → List γ} (hnil : g [] = [])
    (happend : ∀ bs bs', g (bs ++ bs') = g bs ++ g bs') (s : S) (as : List A) :
    g (gather next f s as) = gather next (fun s a => g (f s a)) s as := by
  induction as generalizing s with
  | nil => exact hnil
  | cons a as ih => rw [gather, gather, happend, ih]

end

end LocalEndpoint
