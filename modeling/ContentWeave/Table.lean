/-!
A finite map as a list of pairs with distinct keys.  Looking up after any operation is given by
one equation each; nothing else about the order of the pairs is promised.
-/

namespace ContentWeave

structure Table (κ ν : Type) where
  entries : List (κ × ν) := []
  distinct : (entries.map Prod.fst).Nodup := by simp

namespace Table

variable {κ ν : Type} [DecidableEq κ]

instance : Inhabited (Table κ ν) := ⟨{}⟩

def empty : Table κ ν := {}

def get? (t : Table κ ν) (k : κ) : Option ν := t.entries.lookup k

def contains (t : Table κ ν) (k : κ) : Bool := (t.get? k).isSome

def keys (t : Table κ ν) : List κ := t.entries.map Prod.fst

def size (t : Table κ ν) : Nat := t.entries.length

def sorted [LE κ] [DecidableLE κ] (t : Table κ ν) : List (κ × ν) :=
  t.entries.mergeSort fun a b => decide (a.1 ≤ b.1)

def filter (t : Table κ ν) (p : κ → ν → Bool) : Table κ ν where
  entries := t.entries.filter fun e => p e.1 e.2
  distinct := t.distinct.sublist (List.filter_sublist.map _)

def erase (t : Table κ ν) (k : κ) : Table κ ν := t.filter fun j _ => j ≠ k

def insert (t : Table κ ν) (k : κ) (v : ν) : Table κ ν where
  entries := (t.erase k).entries ++ [(k, v)]
  distinct := by
    rw [List.map_append, List.map_singleton, List.nodup_append]
    refine ⟨(t.erase k).distinct, by simp, ?_⟩
    intro a ha b hb
    obtain ⟨e, he, rfl⟩ := List.mem_map.1 ha
    rw [List.mem_singleton] at hb
    simp only [erase, filter, List.mem_filter, decide_eq_true_eq] at he
    exact hb ▸ he.2

def insertNew (t : Table κ ν) (k : κ) (v : ν) : Table κ ν :=
  if t.contains k then t else t.insert k v

/-- The table of a list of pairs; of two pairs with one key the later counts. -/
def ofList (pairs : List (κ × ν)) : Table κ ν :=
  pairs.foldl (fun t (k, v) => t.insert k v) empty

theorem lookup_eq_none_iff (l : List (κ × ν)) (k : κ) :
    l.lookup k = none ↔ k ∉ l.map Prod.fst := by
  induction l with
  | nil => simp
  | cons e l ih =>
    obtain ⟨j, v⟩ := e
    by_cases h : k = j
    · simp [h]
    · simp [List.lookup_cons, h, ih, beq_eq_false_iff_ne.2 h]

theorem lookup_filter_key (l : List (κ × ν)) (p : κ → Bool) (k : κ) :
    (l.filter fun e => p e.1).lookup k = if p k then l.lookup k else none := by
  induction l with
  | nil => simp
  | cons e l ih =>
    obtain ⟨j, v⟩ := e
    by_cases hk : k = j
    · subst hk
      by_cases hp : p k <;> simp [hp, ih]
    · by_cases hp : p j
      · simp [hp, List.lookup_cons, beq_eq_false_iff_ne.2 hk, ih]
      · simp [hp, List.lookup_cons, beq_eq_false_iff_ne.2 hk, ih]

@[simp] theorem get?_empty (k : κ) : (empty : Table κ ν).get? k = none := rfl

theorem get?_erase (t : Table κ ν) (k j : κ) :
    (t.erase k).get? j = if j = k then none else t.get? j := by
  have := lookup_filter_key t.entries (fun i => decide (i ≠ k)) j
  by_cases h : j = k <;> simpa [get?, erase, filter, h] using this

theorem get?_insert (t : Table κ ν) (k j : κ) (v : ν) :
    (t.insert k v).get? j = if j = k then some v else t.get? j := by
  have he := get?_erase t k j
  unfold get? at he ⊢
  simp only [insert, List.lookup_append, he]
  by_cases h : j = k
  · simp [h]
  · simp [h, List.lookup_cons, beq_eq_false_iff_ne.2 h]

theorem get?_insertNew (t : Table κ ν) (k j : κ) (v : ν) :
    (t.insertNew k v).get? j = if j = k then some ((t.get? k).getD v) else t.get? j := by
  unfold insertNew contains
  cases h : t.get? k with
  | none => simp [get?_insert]
  | some w => by_cases hj : j = k <;> simp [hj, h]

theorem mem_keys_iff (t : Table κ ν) (k : κ) : k ∈ t.keys ↔ t.contains k = true := by
  rw [contains, Option.isSome_iff_ne_none, ne_eq, get?, lookup_eq_none_iff, Classical.not_not, keys]

end Table
end ContentWeave
