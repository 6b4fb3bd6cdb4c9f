/-!
# Tables

A `Table` gives values to keys, one to each, and lists its keys in the order in which they were
first given one.
-/

namespace Transcript

/-- A value for each of some keys. -/
structure Table (κ α : Type) where
  /-- The keys with their values. -/
  entries : List (κ × α)
  /-- No key has two values. -/
  distinct : (entries.map Prod.fst).Nodup

namespace Table

variable {κ α : Type} [DecidableEq κ]

/-- The table without keys. -/
def empty : Table κ α := ⟨[], .nil⟩

instance : EmptyCollection (Table κ α) := ⟨empty⟩
instance : Inhabited (Table κ α) := ⟨empty⟩

/-- The number of keys. -/
def size (t : Table κ α) : Nat := t.entries.length

/-- Whether there are no keys. -/
def isEmpty (t : Table κ α) : Bool := t.entries.isEmpty

/-- The value of a key. -/
def find? (t : Table κ α) (k : κ) : Option α := t.entries.lookup k

/-- Whether the key has a value. -/
def contains (t : Table κ α) (k : κ) : Bool := (t.find? k).isSome

/-- The entry with its value changed, if it is the key's. -/
def update (k : κ) (f : α → α) (e : κ × α) : κ × α := if e.1 = k then (e.1, f e.2) else e

/-- A change of the value at a key leaves the keys as they are. -/
theorem map_fst_update (k : κ) (f : α → α) (es : List (κ × α)) :
    (es.map (update k f)).map Prod.fst = es.map Prod.fst := by
  rw [List.map_map]
  refine List.map_congr_left fun e _ => ?_
  unfold update
  simp only [Function.comp_apply]
  split <;> rfl

/-- The table with the value of a key changed. A key without value stays without. -/
def modify (t : Table κ α) (k : κ) (f : α → α) : Table κ α where
  entries := t.entries.map (update k f)
  distinct := by rw [map_fst_update]; exact t.distinct

/-- A key that no entry is found for is none of the keys. -/
theorem not_mem_of_find?_eq_none {es : List (κ × α)} {k : κ} (h : es.lookup k = none) :
    k ∉ es.map Prod.fst := by
  induction es with
  | nil => simp
  | cons e es ih =>
    obtain ⟨k', a⟩ := e
    rw [List.lookup_cons] at h
    by_cases hk : k = k'
    · simp [hk] at h
    · have hb : (k == k') = false := by simpa using hk
      rw [hb] at h
      simp [hk, ih h]

/-- The table with a value for a key, which replaces the one it had. -/
def insert (t : Table κ α) (k : κ) (a : α) : Table κ α :=
  match h : t.entries.lookup k with
  | some _ => t.modify k fun _ => a
  | none =>
    { entries := t.entries ++ [(k, a)]
      distinct := by
        have hk := not_mem_of_find?_eq_none h
        rw [List.map_append, List.nodup_append]
        refine ⟨t.distinct, List.pairwise_singleton _ _, fun x hx y hy => ?_⟩
        have hy : y = k := by simpa using hy
        exact fun hxy => hk (by rw [← hy, ← hxy]; exact hx) }

/-- The table with only those keys that pass the test. -/
def filter (t : Table κ α) (p : κ → Bool) : Table κ α where
  entries := t.entries.filter fun e => p e.1
  distinct := t.distinct.sublist (List.filter_sublist.map _)

/-- The table without a key. -/
def erase (t : Table κ α) (k : κ) : Table κ α := t.filter fun k' => k' ≠ k

end Table

end Transcript
