/-! Tables: at most one value for each key. A table is seen through `get?`; `get?_put` and
    `get?_erase` say what the operations do to that view. -/

namespace LocalEndpoint.Unix

/-- Values by key, the last put first. -/
structure Table (κ α : Type) where
  rows : List (κ × α) := []

namespace Table

variable {κ α : Type} [BEq κ]

/-- The value of a key. -/
def get? (t : Table κ α) (k : κ) : Option α := t.rows.lookup k

/-- Removes the value of a key. -/
def erase (t : Table κ α) (k : κ) : Table κ α := ⟨t.rows.filter (·.1 != k)⟩

/-- Gives a key a value; the one it had is lost. -/
def put (t : Table κ α) (k : κ) (a : α) : Table κ α := ⟨(k, a) :: (t.erase k).rows⟩

/-- Whether a key has a value. -/
def has (t : Table κ α) (k : κ) : Bool := (t.get? k).isSome

def keys (t : Table κ α) : List κ := t.rows.map (·.1)

def values (t : Table κ α) : List α := t.rows.map (·.2)

@[simp] theorem get?_empty (k : κ) : ({} : Table κ α).get? k = none := rfl

variable [LawfulBEq κ]

theorem lookup_cons_ne {i j : κ} (h : j ≠ i) (a : α) (rows : List (κ × α)) :
    ((i, a) :: rows).lookup j = rows.lookup j := by
  rw [List.lookup_cons, beq_false_of_ne h]

theorem lookup_filter_ne (rows : List (κ × α)) (k j : κ) :
    (rows.filter (·.1 != k)).lookup j = if j == k then none else rows.lookup j := by
  induction rows with
  | nil => simp
  | cons row rows ih =>
    obtain ⟨i, a⟩ := row
    by_cases hi : i = k
    · subst hi
      rw [List.filter_cons_of_neg (by simp), ih]
      by_cases hj : j = i
      · simp [hj]
      · rw [lookup_cons_ne hj]
    · rw [List.filter_cons_of_pos (by simpa using hi)]
      by_cases hj : j = i
      · subst hj; simp [hi]
      · rw [lookup_cons_ne hj, lookup_cons_ne hj, ih]

/-- An erased key has no value; the others keep theirs. -/
theorem get?_erase (t : Table κ α) (k j : κ) :
    (t.erase k).get? j = if j == k then none else t.get? j :=
  lookup_filter_ne t.rows k j

/-- A key has the value last put; the others keep theirs. -/
theorem get?_put (t : Table κ α) (k j : κ) (a : α) :
    (t.put k a).get? j = if j == k then some a else t.get? j := by
  by_cases h : j = k
  · subst h; simp [put, get?]
  · rw [get?, put, lookup_cons_ne h, ← get?, get?_erase]
    simp [h]

/-! ### Rows with different keys -/

omit [LawfulBEq κ] in
theorem keys_erase_sublist (t : Table κ α) (k : κ) : (t.erase k).keys.Sublist t.keys :=
  List.filter_sublist.map _

omit [LawfulBEq κ] in
theorem nodup_keys_erase {t : Table κ α} (h : t.keys.Nodup) (k : κ) : (t.erase k).keys.Nodup :=
  h.sublist (t.keys_erase_sublist k)

theorem nodup_keys_put {t : Table κ α} (h : t.keys.Nodup) (k : κ) (a : α) :
    (t.put k a).keys.Nodup := by
  refine List.nodup_cons.mpr ⟨?_, nodup_keys_erase h k⟩
  intro hk
  obtain ⟨row, hrow, hkey⟩ := List.mem_map.mp hk
  simp [erase, hkey] at hrow

/-- Then every row can be seen. -/
theorem get?_of_mem {t : Table κ α} (h : t.keys.Nodup) {k : κ} {a : α} (hrow : (k, a) ∈ t.rows) :
    t.get? k = some a := by
  obtain ⟨rows⟩ := t
  induction rows with
  | nil => cases hrow
  | cons row rows ih =>
    obtain ⟨i, b⟩ := row
    obtain ⟨hnew, hrest⟩ := List.nodup_cons.mp h
    rcases List.mem_cons.mp hrow with heq | hmem
    · cases heq
      simp [get?]
    · have hne : k ≠ i := fun hki => hnew (List.mem_map.mpr ⟨(k, a), hmem, hki⟩)
      exact (lookup_cons_ne hne b rows).trans (ih hrest hmem)

end Table

end LocalEndpoint.Unix
