/-!
# Tables

A finite map that remembers the order in which its keys were first put in. It is a list of
entries, no two of which have the same key; the proof travels with the list.

A table is known by what `find?` answers and by its `keys`: each operation below has one equation
for the one and, where it changes them, one for the other.
-/

namespace JvmSignature

/-- A finite map from `κ` to `α`. -/
structure Table (κ α : Type) where
  entries : List (κ × α)
  nodup : (entries.map Prod.fst).Nodup
  deriving DecidableEq

namespace Table

variable {κ α : Type}

/-- The table without entries. -/
def empty : Table κ α := ⟨[], List.nodup_nil⟩

/-- The keys, in the order in which they first came in. -/
def keys (t : Table κ α) : List κ := t.entries.map Prod.fst

/-- The number of keys. -/
def size (t : Table κ α) : Nat := t.entries.length

theorem nodup_keys (t : Table κ α) : t.keys.Nodup := t.nodup

theorem length_keys (t : Table κ α) : t.keys.length = t.size := List.length_map _

variable [DecidableEq κ]

/-- The value of the entry with a key. -/
def valueOf? (k : κ) : List (κ × α) → Option α
  | [] => none
  | e :: rest => if e.1 = k then some e.2 else valueOf? k rest

/-- What the table holds under a key. -/
def find? (t : Table κ α) (k : κ) : Option α := valueOf? k t.entries

/-- Whether the table holds something under a key. -/
def contains (t : Table κ α) (k : κ) : Bool := (t.find? k).isSome

/-- The entries with `v` under `k`: in the place of an entry of that key, else at the end. -/
def putEntry (k : κ) (v : α) : List (κ × α) → List (κ × α)
  | [] => [(k, v)]
  | e :: rest => if e.1 = k then (k, v) :: rest else e :: putEntry k v rest

theorem map_fst_putEntry (k : κ) (v : α) (l : List (κ × α)) :
    (putEntry k v l).map Prod.fst =
      if k ∈ l.map Prod.fst then l.map Prod.fst else l.map Prod.fst ++ [k] := by
  induction l with
  | nil => simp [putEntry]
  | cons e l ih =>
    by_cases h : e.1 = k
    · simp [putEntry, h]
    · by_cases hm : k ∈ l.map Prod.fst
      · rw [if_pos hm] at ih
        rw [putEntry, if_neg h, List.map_cons, List.map_cons, ih,
          if_pos (List.mem_cons_of_mem _ hm)]
      · rw [if_neg hm] at ih
        rw [putEntry, if_neg h, List.map_cons, List.map_cons, ih,
          if_neg (by simp only [List.mem_cons, not_or]; exact ⟨Ne.symm h, hm⟩), List.cons_append]

theorem nodup_putEntry {k : κ} {v : α} {l : List (κ × α)} (h : (l.map Prod.fst).Nodup) :
    ((putEntry k v l).map Prod.fst).Nodup := by
  rw [map_fst_putEntry]
  split
  · exact h
  · next hk =>
    refine List.nodup_append.mpr ⟨h, List.pairwise_singleton _ k, fun a ha b hb he => hk ?_⟩
    rwa [← List.mem_singleton.mp hb, ← he]

/-- The table with `v` under `k`, in the place of what was there. -/
def insert (t : Table κ α) (k : κ) (v : α) : Table κ α :=
  ⟨putEntry k v t.entries, nodup_putEntry t.nodup⟩

/-- The table of a list of entries; a later entry replaces an earlier one of the same key. -/
def ofList (l : List (κ × α)) : Table κ α := l.foldl (fun t e => t.insert e.1 e.2) empty

theorem valueOf?_putEntry (k k' : κ) (v : α) (l : List (κ × α)) :
    valueOf? k' (putEntry k v l) = if k' = k then some v else valueOf? k' l := by
  induction l with
  | nil => by_cases h : k = k' <;> simp [putEntry, valueOf?, h, eq_comm]
  | cons e l ih =>
    by_cases he : e.1 = k
    · by_cases h : k' = k
      · simp [putEntry, valueOf?, he, h]
      · simp [putEntry, valueOf?, he, h, Ne.symm h]
    · by_cases h : e.1 = k'
      · have hk : k' ≠ k := fun hk => he (h.trans hk)
        simp [putEntry, valueOf?, h, hk]
      · simp [putEntry, valueOf?, he, h, ih]

@[simp] theorem find?_empty (k : κ) : (empty : Table κ α).find? k = none := rfl

theorem find?_insert (t : Table κ α) (k k' : κ) (v : α) :
    (t.insert k v).find? k' = if k' = k then some v else t.find? k' :=
  valueOf?_putEntry k k' v t.entries

omit [DecidableEq κ] in
@[simp] theorem keys_empty : (empty : Table κ α).keys = [] := rfl

theorem keys_insert (t : Table κ α) (k : κ) (v : α) :
    (t.insert k v).keys = if k ∈ t.keys then t.keys else t.keys ++ [k] :=
  map_fst_putEntry k v t.entries

theorem find?_isSome_iff {t : Table κ α} {k : κ} : (t.find? k).isSome ↔ k ∈ t.keys := by
  rw [find?, keys]
  induction t.entries with
  | nil => simp [valueOf?]
  | cons e l ih =>
    by_cases h : e.1 = k
    · simp [valueOf?, h]
    · rw [valueOf?, if_neg h, ih, List.map_cons, List.mem_cons]
      exact ⟨Or.inr, fun hm => hm.resolve_left (Ne.symm h)⟩

theorem contains_iff {t : Table κ α} {k : κ} : t.contains k = true ↔ k ∈ t.keys :=
  find?_isSome_iff

theorem size_insert (t : Table κ α) (k : κ) (v : α) :
    (t.insert k v).size = if t.contains k then t.size else t.size + 1 := by
  rw [← length_keys, keys_insert]
  by_cases h : k ∈ t.keys
  · rw [if_pos h, if_pos (contains_iff.mpr h), length_keys]
  · rw [if_neg h, if_neg (fun hc => h (contains_iff.mp hc)), List.length_append, length_keys]
    rfl

end Table

end JvmSignature
