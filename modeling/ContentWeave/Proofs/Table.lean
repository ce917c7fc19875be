import ContentWeave.TemplateCache
import Mathlib.Data.List.Lookmap
import Mathlib.Tactic.Common

/-!
# What stands under a key

The entries of a table are exactly its keys with what stands under them, so filtered and sorted
tables and tables made of lists are known by their look-ups.
-/

namespace ContentWeave
namespace Table

variable {κ ν : Type} [DecidableEq κ]

theorem mem_of_lookup {l : List (κ × ν)} {k : κ} {v : ν} (h : l.lookup k = some v) :
    (k, v) ∈ l := by
  obtain ⟨l₁, l₂, rfl, -⟩ := List.lookup_eq_some_iff.1 h
  simp

theorem lookup_of_mem {l : List (κ × ν)} (hl : (l.map Prod.fst).Nodup) {k : κ} {v : ν}
    (h : (k, v) ∈ l) : l.lookup k = some v := by
  induction l with
  | nil => simp at h
  | cons e l ih =>
    obtain ⟨j, w⟩ := e
    rw [List.map_cons, List.nodup_cons] at hl
    rcases List.mem_cons.1 h with h | h
    · cases h
      simp
    · have hne : k ≠ j := by
        intro hkj
        exact hl.1 (List.mem_map.2 ⟨(k, v), h, hkj⟩)
      simp [List.lookup_cons, beq_eq_false_iff_ne.2 hne, ih hl.2 h]

theorem lookup_eq_some_iff_mem {l : List (κ × ν)} (hl : (l.map Prod.fst).Nodup) {k : κ} {v : ν} :
    l.lookup k = some v ↔ (k, v) ∈ l :=
  ⟨mem_of_lookup, lookup_of_mem hl⟩

theorem get?_eq_some_iff (t : Table κ ν) (k : κ) (v : ν) :
    t.get? k = some v ↔ (k, v) ∈ t.entries :=
  lookup_eq_some_iff_mem t.distinct

theorem get?_filter_eq_some_iff (t : Table κ ν) (p : κ → ν → Bool) (k : κ) (v : ν) :
    (t.filter p).get? k = some v ↔ t.get? k = some v ∧ p k v = true := by
  rw [get?_eq_some_iff, get?_eq_some_iff]
  simp [filter]

theorem get?_foldl_insert (l : List (κ × ν)) (t : Table κ ν) (k : κ) :
    (l.foldl (fun t (k, v) => t.insert k v) t).get? k = (l.reverse.lookup k).or (t.get? k) := by
  induction l generalizing t with
  | nil => simp
  | cons e l ih =>
    obtain ⟨j, w⟩ := e
    rw [List.foldl_cons, ih, get?_insert, List.reverse_cons, List.lookup_append, Option.or_assoc]
    by_cases h : k = j
    · simp [h]
    · simp [h, List.lookup_cons, beq_eq_false_iff_ne.2 h]

theorem get?_ofList (l : List (κ × ν)) (k : κ) : (ofList l).get? k = l.reverse.lookup k := by
  rw [ofList, get?_foldl_insert]
  simp

theorem get?_ofList_of_perm {t : Table κ ν} {l : List (κ × ν)} (h : l.Perm t.entries) (k : κ) :
    (ofList l).get? k = t.get? k := by
  have hdistinct : (l.reverse.map Prod.fst).Nodup := by
    have hp := ((l.reverse_perm.trans h).map Prod.fst).nodup_iff
    exact hp.2 t.distinct
  have hiff : ∀ v, (ofList l).get? k = some v ↔ t.get? k = some v := by
    intro v
    rw [get?_ofList, lookup_eq_some_iff_mem hdistinct, get?_eq_some_iff, List.mem_reverse]
    exact h.mem_iff
  exact Option.ext hiff

theorem get?_ofList_sorted [LE κ] [DecidableLE κ] (t : Table κ ν) (k : κ) :
    (ofList t.sorted).get? k = t.get? k :=
  get?_ofList_of_perm (List.mergeSort_perm _ _) k

end Table

namespace TemplateCache

theorem get?_remember (t : TemplateCache) (key j : Text) (template : Option Text) :
    (t.remember key template).resident.get? j =
      if j = key then some ((t.resident.get? key).getD template) else t.resident.get? j :=
  Table.get?_insertNew _ _ _ _

theorem get?_foldl_remember (l : List (Text × Text)) (t : TemplateCache) (j : Text) :
    (l.foldl (fun t (key, template) => t.remember key (some template)) t).resident.get? j =
      (t.resident.get? j).or ((l.lookup j).map some) := by
  induction l generalizing t with
  | nil => simp
  | cons e l ih =>
    obtain ⟨key, template⟩ := e
    rw [List.foldl_cons, ih, get?_remember]
    by_cases h : j = key
    · subst h
      cases ht : t.resident.get? j <;> simp
    · simp [h, List.lookup_cons, beq_eq_false_iff_ne.2 h]

theorem get?_rememberAll (t : TemplateCache) (templates : Table Text Text) (j : Text) :
    (t.rememberAll templates).resident.get? j =
      (t.resident.get? j).or ((templates.get? j).map some) := by
  have hlookup : templates.entries.lookup j = templates.get? j := by
    unfold Table.get?
    congr 1
    exact lawful_beq_subsingleton _ _
  have h := get?_foldl_remember templates.entries t j
  rw [hlookup] at h
  exact h

def All (t : TemplateCache) (known : Text → Option Text → Prop) : Prop :=
  ∀ key template, t.resident.get? key = some template → known key template

namespace All

variable {t : TemplateCache} {known : Text → Option Text → Prop}

theorem empty (known : Text → Option Text → Prop) : All {} known := by
  intro key template h
  have hnone : (({} : TemplateCache).resident).get? key = none := rfl
  rw [hnone] at h
  cases h

theorem remember (h : t.All known) {key : Text} {template : Option Text}
    (ht : known key template) : (t.remember key template).All known := by
  intro j x hx
  rw [get?_remember] at hx
  split_ifs at hx with hj
  · subst hj
    cases hr : t.resident.get? j with
    | none =>
      rw [hr] at hx
      cases hx
      exact ht
    | some y =>
      rw [hr] at hx
      cases hx
      exact h j _ hr
  · exact h j x hx

theorem rememberAll (h : t.All known) {templates : Table Text Text}
    (ht : ∀ key template, templates.get? key = some template → known key (some template)) :
    (t.rememberAll templates).All known := by
  intro j x hx
  rw [get?_rememberAll] at hx
  rcases Option.or_eq_some_iff.1 hx with hx | ⟨-, hx⟩
  · exact h j x hx
  · obtain ⟨template, htemplate, rfl⟩ := Option.map_eq_some_iff.1 hx
    exact ht j template htemplate

end All

end TemplateCache
end ContentWeave
