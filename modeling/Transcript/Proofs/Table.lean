import Transcript.Table

/-!
# What is found in a table

What the operations do to a table is told by what is found in it afterwards. Only the parts of a
table, each of them the keys that pass a test, are told with the order of the keys: an operation on
the table is one on the part that the key belongs to (`Table.filter_insert`, `Table.filter_modify`).
-/

namespace Transcript.Table

variable {κ α : Type} [DecidableEq κ]

/-- A change of one key's value is a change for that key only. -/
theorem lookup_map_update (es : List (κ × α)) (k k' : κ) (f : α → α) :
    (es.map (update k f)).lookup k' =
      if k' = k then (es.lookup k').map f else es.lookup k' := by
  induction es with
  | nil => simp
  | cons e es ih =>
      obtain ⟨l, a⟩ := e
      rw [List.map_cons, update]
      by_cases hl : k' = l
      · subst hl
        by_cases hk : k' = k
        · simp [hk]
        · simp [hk]
      · have hne : (k' == l) = false := by simpa using hl
        by_cases hk : l = k
        · subst hk
          simp [List.lookup_cons, hne, hl, ih]
        · simp [hk, List.lookup_cons, hne, ih]

/-- The change of a value is found under its key. -/
theorem find_modify (t : Table κ α) (k k' : κ) (f : α → α) :
    (t.modify k f).find? k' = if k' = k then (t.find? k').map f else t.find? k' :=
  lookup_map_update t.entries k k' f

/-- No key gets a value by it, or loses the one it had. -/
@[simp] theorem contains_modify (t : Table κ α) (k k' : κ) (f : α → α) :
    (t.modify k f).contains k' = t.contains k' := by
  unfold contains
  rw [find_modify]
  split
  · rename_i hk
    rw [hk, Option.isSome_map]
  · rfl

/-- A value that is put in is found under its key, and the others are found as before. -/
@[simp] theorem find_insert (t : Table κ α) (k k' : κ) (a : α) :
    (t.insert k a).find? k' = if k' = k then some a else t.find? k' := by
  unfold insert
  split
  · rename_i b hb
    rw [find_modify]
    by_cases hk : k' = k
    · subst hk
      simp [find?, hb]
    · simp [hk]
  · rename_i hnone
    show (t.entries ++ [(k, a)]).lookup k' = _
    rw [List.lookup_append]
    by_cases hk : k' = k
    · subst hk
      simp [hnone]
    · have hne : (k' == k) = false := by simpa using hk
      simp [hk, find?, List.lookup_cons, hne]

/-- Only the keys that pass the test are still found. -/
theorem find_filter (t : Table κ α) (p : κ → Bool) (k : κ) :
    (t.filter p).find? k = if p k then t.find? k else none := by
  show (t.entries.filter fun e => p e.1).lookup k = if p k then t.entries.lookup k else none
  induction t.entries with
  | nil => simp
  | cons e es ih =>
      obtain ⟨l, a⟩ := e
      by_cases hl : p l = true
      · by_cases hk : k = l
        · subst hk
          simp [hl]
        · simp [hl, List.lookup_cons, ih, show (k == l) = false by simpa using hk]
      · by_cases hk : k = l
        · subst hk
          simp [hl, ih]
        · simp [hl, List.lookup_cons, ih, show (k == l) = false by simpa using hk]

/-- A key that is erased is not found any more, and the others are found as before. -/
@[simp] theorem find_erase (t : Table κ α) (k k' : κ) :
    (t.erase k).find? k' = if k' = k then none else t.find? k' := by
  rw [erase, find_filter]
  by_cases hk : k' = k
  · simp [hk]
  · simp [hk]

/-! ## Parts of a table -/

omit [DecidableEq κ] in
/-- A table is its entries. -/
theorem eq_of_entries {t t' : Table κ α} (h : t.entries = t'.entries) : t = t' := by
  cases t
  cases t'
  cases h
  rfl

/-- Nothing is found at a key that the table does not have. -/
theorem lookup_of_contains_eq_false {t : Table κ α} {k : κ} (h : t.contains k = false) :
    t.entries.lookup k = none := by
  rwa [contains, Option.isSome_eq_false_iff, Option.isNone_iff_eq_none] at h

/-- A value that is put in for a key that has one replaces it. -/
theorem insert_eq_modify {t : Table κ α} {k : κ} (h : t.contains k = true) (a : α) :
    t.insert k a = t.modify k fun _ => a := by
  unfold insert
  split
  · rfl
  · rename_i hnone
    simp [contains, find?, hnone] at h

/-- For a key that has none it is put behind the others. -/
theorem entries_insert {t : Table κ α} {k : κ} (h : t.contains k = false) (a : α) :
    (t.insert k a).entries = t.entries ++ [(k, a)] := by
  have hnone := lookup_of_contains_eq_false h
  unfold insert
  split
  · rename_i hsome
    rw [hnone] at hsome
    exact nomatch hsome
  · rfl

/-- The value of a key that is not there is not changed. -/
theorem modify_eq_self {t : Table κ α} {k : κ} (h : t.contains k = false) (f : α → α) :
    t.modify k f = t := by
  have habsent := not_mem_of_find?_eq_none (lookup_of_contains_eq_false h)
  have hkept : ∀ e ∈ t.entries, update k f e = e := by
    intro e he
    have hne : e.1 ≠ k := by
      rintro rfl
      exact habsent (List.mem_map_of_mem he)
    exact if_neg hne
  exact eq_of_entries ((List.map_congr_left hkept).trans (List.map_id' _))

/-- A key is in a part of a table if it is in the table and belongs to the part. -/
theorem contains_filter (t : Table κ α) (p : κ → Bool) (k : κ) :
    (t.filter p).contains k = (p k && t.contains k) := by
  unfold contains
  rw [find_filter]
  cases p k <;> simp

/-- A change of a value is a change of it in every part of the table. -/
theorem filter_modify (t : Table κ α) (p : κ → Bool) (k : κ) (f : α → α) :
    (t.modify k f).filter p = (t.filter p).modify k f := by
  have hkey (e : κ × α) : (update k f e).1 = e.1 := by
    unfold update
    split <;> rfl
  refine eq_of_entries ?_
  show (t.entries.map (update k f)).filter _ = (t.entries.filter _).map (update k f)
  rw [List.filter_map]
  exact congrArg _ (List.filter_congr fun e _ => congrArg p (hkey e))

/-- A value is put into the part of the table that its key belongs to. -/
theorem filter_insert (t : Table κ α) (p : κ → Bool) (k : κ) (a : α) :
    (t.insert k a).filter p = if p k then (t.filter p).insert k a else t.filter p := by
  have hpart := t.contains_filter p k
  cases hk : p k with
  | true =>
      rw [hk, Bool.true_and] at hpart
      cases hold : t.contains k with
      | true =>
          rw [if_pos rfl, insert_eq_modify hold, insert_eq_modify (hpart.trans hold), filter_modify]
      | false =>
          refine eq_of_entries ?_
          rw [if_pos rfl, entries_insert (hpart.trans hold)]
          show (t.insert k a).entries.filter _ = t.entries.filter _ ++ _
          rw [entries_insert hold, List.filter_append]
          simp [hk]
  | false =>
      rw [hk, Bool.false_and] at hpart
      cases hold : t.contains k with
      | true => rw [if_neg (by simp), insert_eq_modify hold, filter_modify, modify_eq_self hpart]
      | false =>
          refine eq_of_entries ?_
          rw [if_neg (by simp)]
          show (t.insert k a).entries.filter _ = t.entries.filter _
          rw [entries_insert hold, List.filter_append]
          simp [hk]

omit [DecidableEq κ] in
/-- To take two parts after each other is the same in either order. -/
theorem filter_comm (t : Table κ α) (p q : κ → Bool) :
    (t.filter p).filter q = (t.filter q).filter p := by
  refine eq_of_entries ?_
  show (t.entries.filter _).filter _ = (t.entries.filter _).filter _
  rw [List.filter_filter, List.filter_filter]
  exact List.filter_congr fun e _ => Bool.and_comm _ _

end Transcript.Table
