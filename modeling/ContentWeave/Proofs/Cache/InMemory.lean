import ContentWeave.Proofs.Cache.History
import ContentWeave.Proofs.Cache.Sound
import Mathlib.Data.Set.Card

/-!
# Caches in memory keep what they are asked to keep

What a cache holds at a time is read off its entries that count then. Every call has one equation for
it, in which neither the versions of tags nor the entries that no longer count show. The equations
are those of histories, so the cache answers with what its history asks it to keep.
-/

namespace ContentWeave

def MemoryEntry.holding (e : MemoryEntry) : Holding := ⟨e.value, e.expires, e.tags.map Prod.fst⟩

def Deposit.holding (s : Deposit) : Holding :=
  ⟨s.value, if s.ttl = 0 then none else some (s.stored + s.ttl), s.dependency.tags⟩

theorem Deposit.lasts_holding (s : Deposit) (now : ℕ) :
    s.holding.Lasts now ↔ s.ttl = 0 ∨ now < s.stored + s.ttl := by
  unfold Deposit.holding Holding.Lasts
  by_cases h : s.ttl = 0 <;> simp [h]

theorem Table.size_eq_ncard_keys {κ ν : Type} (t : Table κ ν) :
    t.size = { k | k ∈ t.keys }.ncard := by
  classical
  have hset : { k | k ∈ t.keys } = (t.keys.toFinset : Set κ) := by
    ext k
    simp
  have hdistinct : t.keys.Nodup := t.distinct
  rw [hset, Set.ncard_coe_finset, List.toFinset_card_of_nodup hdistinct]
  simp [Table.keys, Table.size]

namespace MemoryCache

variable {c : MemoryCache} {now later ttl : ℕ} {key j value tag : Text} {e : MemoryEntry}
variable {dependency : Dependency} {tags : List Text} {h : Holding}

def holds? (c : MemoryCache) (now : ℕ) (key : Text) : Option Holding :=
  ((c.entries.get? key).filter (c.isFresh now)).map MemoryEntry.holding

def Timely (c : MemoryCache) : Prop :=
  ∀ key e, c.entries.get? key = some e → ∀ tag version, (tag, version) ∈ e.tags →
    version ≤ c.version tag

theorem isFresh_iff : c.isFresh now e = true ↔
    e.holding.Lasts now ∧ ∀ tag version, (tag, version) ∈ e.tags → c.version tag = version := by
  rw [isFresh, Bool.and_eq_true, List.all_eq_true]
  refine and_congr ?_ (by simp)
  unfold Holding.Lasts MemoryEntry.holding
  cases e.expires <;> simp

theorem isFresh_of_le (hle : now ≤ later) (h : c.isFresh later e = true) :
    c.isFresh now e = true := by
  rw [isFresh_iff] at h ⊢
  exact ⟨fun t ht => Nat.lt_of_le_of_lt hle (h.1 t ht), h.2⟩

theorem holds?_eq_some_iff : c.holds? now key = some h ↔
    ∃ e, c.entries.get? key = some e ∧ c.isFresh now e = true ∧ e.holding = h := by
  simp [holds?, Option.map_eq_some_iff, Option.filter_eq_some_iff, and_assoc]

theorem get_eq_holds? (c : MemoryCache) (now : ℕ) (key : Text) :
    (c.get now key).1 = (c.holds? now key).map (·.value) := by
  unfold get holds?
  cases c.entries.get? key with
  | none => rfl
  | some e => cases hf : c.isFresh now e <;> simp [hf, MemoryEntry.holding, Option.filter]

theorem holds?_congr {c' : MemoryCache} (hversion : ∀ tag, c'.version tag = c.version tag)
    (hentries : ∀ e, c.isFresh later e = true →
      (c'.entries.get? j = some e ↔ c.entries.get? j = some e)) :
    c'.holds? later j = c.holds? later j := by
  have hfresh : ∀ e, c'.isFresh later e = c.isFresh later e := by
    intro e
    simp only [isFresh, hversion]
  refine Option.ext fun h => ?_
  rw [holds?_eq_some_iff, holds?_eq_some_iff]
  refine exists_congr fun e => ?_
  rw [hfresh]
  constructor
  · rintro ⟨he, hf, hh⟩
    exact ⟨(hentries e hf).1 he, hf, hh⟩
  · rintro ⟨he, hf, hh⟩
    exact ⟨(hentries e hf).2 he, hf, hh⟩

section Get

theorem version_get (c : MemoryCache) (now : ℕ) (key tag : Text) :
    (c.get now key).2.version tag = c.version tag := by
  unfold get
  split
  · rfl
  · split_ifs <;> rfl

theorem entry_get_of_isFresh (hle : now ≤ later) (he : c.entries.get? j = some e)
    (hf : c.isFresh later e = true) : (c.get now key).2.entries.get? j = some e := by
  unfold get
  split
  · exact he
  · rename_i e' he'
    split_ifs with hfresh
    · exact he
    · rw [Table.get?_erase, if_neg]
      · exact he
      · rintro rfl
        rw [he] at he'
        cases he'
        exact hfresh (isFresh_of_le hle hf)

theorem holds?_get (hle : now ≤ later) (key j : Text) :
    (c.get now key).2.holds? later j = c.holds? later j :=
  holds?_congr (version_get c now key) fun _ hf =>
    ⟨fun he => entry_of_get_entry he, fun he => entry_get_of_isFresh hle he hf⟩

theorem Timely.get (hc : c.Timely) (now : ℕ) (key : Text) : (c.get now key).2.Timely := by
  intro j e he tag version ht
  rw [version_get]
  exact hc j e (entry_of_get_entry he) tag version ht

end Get

section Set

def made (c : MemoryCache) (now : ℕ) (value : Text) (ttl : ℕ) (dependency : Dependency) :
    MemoryEntry :=
  ⟨value, if ttl = 0 then none else some (now + ttl),
    dependency.tags.map fun tag => (tag, c.version tag)⟩

theorem holding_made (c : MemoryCache) (now : ℕ) (value : Text) (ttl : ℕ)
    (dependency : Dependency) :
    (c.made now value ttl dependency).holding =
      Deposit.holding ⟨now, value, ttl, dependency⟩ := by
  simp [made, MemoryEntry.holding, Deposit.holding, Function.comp_def]

theorem version_eq_of_mem_made {version : ℕ}
    (ht : (tag, version) ∈ (c.made now value ttl dependency).tags) : c.version tag = version := by
  simp only [made, List.mem_map] at ht
  obtain ⟨t, -, heq⟩ := ht
  cases heq
  rfl

def putIn (c : MemoryCache) (now : ℕ) (key value : Text) (ttl : ℕ) (dependency : Dependency) :
    MemoryCache :=
  { c with entries := c.entries.insert key (c.made now value ttl dependency) }

theorem get?_set (c : MemoryCache) (now : ℕ) (key value : Text) (ttl : ℕ) (dependency : Dependency)
    (j : Text) : (c.set now key value ttl dependency).entries.get? j =
      if j = key then some (c.made now value ttl dependency)
      else (c.entries.get? j).filter (c.isFresh now) := by
  have hfilter : (c.entries.filter fun _ e => c.isFresh now e).get? j =
      (c.entries.get? j).filter (c.isFresh now) := by
    refine Option.ext fun e => ?_
    rw [Table.get?_filter_eq_some_iff, Option.filter_eq_some_iff]
  rw [← hfilter]
  exact Table.get?_insert _ _ _ _

theorem get?_putIn (c : MemoryCache) (now : ℕ) (key value : Text) (ttl : ℕ)
    (dependency : Dependency) (j : Text) :
    (c.putIn now key value ttl dependency).entries.get? j =
      if j = key then some (c.made now value ttl dependency) else c.entries.get? j :=
  Table.get?_insert _ _ _ _

theorem holds?_made {c' : MemoryCache} (hversion : ∀ tag, c'.version tag = c.version tag)
    (hentry : c'.entries.get? key = some (c.made now value ttl dependency)) :
    c'.holds? later key = some h ↔
      h = Deposit.holding ⟨now, value, ttl, dependency⟩ ∧ h.Lasts later := by
  rw [holds?_eq_some_iff, hentry]
  constructor
  · rintro ⟨e, he, hf, rfl⟩
    cases he
    exact ⟨holding_made _ _ _ _ _, (isFresh_iff.1 hf).1⟩
  · rintro ⟨rfl, hlasts⟩
    refine ⟨_, rfl, isFresh_iff.2 ⟨?_, fun tag version ht => ?_⟩, holding_made _ _ _ _ _⟩
    · rw [holding_made]
      exact hlasts
    · rw [hversion]
      exact version_eq_of_mem_made ht

theorem holds?_set_self (c : MemoryCache) (now : ℕ) (key value : Text) (ttl : ℕ)
    (dependency : Dependency) (later : ℕ) (h : Holding) :
    (c.set now key value ttl dependency).holds? later key = some h ↔
      h = Deposit.holding ⟨now, value, ttl, dependency⟩ ∧ h.Lasts later :=
  holds?_made (c := c) (fun _ => rfl) (by rw [get?_set, if_pos rfl])

theorem holds?_set_of_ne (hle : now ≤ later) (hj : j ≠ key) (value : Text) (ttl : ℕ)
    (dependency : Dependency) :
    (c.set now key value ttl dependency).holds? later j = c.holds? later j := by
  refine holds?_congr (fun _ => rfl) fun e hf => ?_
  rw [get?_set, if_neg hj, Option.filter_eq_some_iff]
  exact and_iff_left (isFresh_of_le hle hf)

theorem holds?_putIn (c : MemoryCache) (now : ℕ) (key value : Text) (ttl : ℕ)
    (dependency : Dependency) (hle : now ≤ later) (j : Text) :
    (c.putIn now key value ttl dependency).holds? later j =
      (c.set now key value ttl dependency).holds? later j := by
  by_cases hj : j = key
  · subst hj
    refine Option.ext fun h => ?_
    rw [holds?_set_self]
    exact holds?_made (c := c) (fun _ => rfl) (by rw [get?_putIn, if_pos rfl])
  · rw [holds?_set_of_ne hle hj]
    exact holds?_congr (fun _ => rfl) fun e _ => by rw [get?_putIn, if_neg hj]

theorem Timely.set (hc : c.Timely) (now : ℕ) (key value : Text) (ttl : ℕ)
    (dependency : Dependency) : (c.set now key value ttl dependency).Timely := by
  intro j e he tag version ht
  rw [get?_set] at he
  split_ifs at he with hj
  · cases he
    exact (version_eq_of_mem_made ht).ge
  · exact hc j e (Option.filter_eq_some_iff.1 he).1 tag version ht

theorem Timely.putIn (hc : c.Timely) (now : ℕ) (key value : Text) (ttl : ℕ)
    (dependency : Dependency) : (c.putIn now key value ttl dependency).Timely := by
  intro j e he tag version ht
  rw [get?_putIn] at he
  split_ifs at he with hj
  · cases he
    exact (version_eq_of_mem_made ht).ge
  · exact hc j e he tag version ht

end Set

section Invalidate

theorem version_invalidate (c : MemoryCache) (tags : List Text) (tag : Text) :
    (c.invalidate tags).version tag = c.version tag + tags.count tag := by
  induction tags generalizing c with
  | nil => rfl
  | cons first tags ih =>
    have hfirst : ({ c with versions := c.versions.insert first (c.version first + 1) } :
        MemoryCache).version tag = c.version tag + if tag = first then 1 else 0 := by
      simp only [version, Table.get?_insert]
      by_cases h : tag = first
      · subst h
        simp
      · simp [h]
    refine (ih _).trans ?_
    rw [hfirst, List.count_cons]
    by_cases h : tag = first
    · subst h
      simp only [if_true, beq_self_eq_true]
      omega
    · have hne : (first == tag) = false := beq_eq_false_iff_ne.2 (Ne.symm h)
      simp [h, hne]

theorem isFresh_invalidate (ht : ∀ tag version, (tag, version) ∈ e.tags →
      version ≤ c.version tag) (later : ℕ) :
    (c.invalidate tags).isFresh later e = true ↔
      c.isFresh later e = true ∧ ∀ tag ∈ e.holding.tags, tag ∉ tags := by
  rw [isFresh_iff, isFresh_iff, and_assoc]
  refine and_congr_right fun _ => ?_
  exact current_iff_of_invalidated ht fun tag _ _ => version_invalidate c tags tag

theorem holds?_invalidate (hc : c.Timely) (tags : List Text) (later : ℕ) (key : Text) (h : Holding) :
    (c.invalidate tags).holds? later key = some h ↔
      c.holds? later key = some h ∧ ∀ tag ∈ h.tags, tag ∉ tags := by
  rw [holds?_eq_some_iff, holds?_eq_some_iff, entries_invalidate]
  constructor
  · rintro ⟨e, he, hf, rfl⟩
    obtain ⟨hf, htags⟩ := (isFresh_invalidate (hc key e he) later).1 hf
    exact ⟨⟨e, he, hf, rfl⟩, htags⟩
  · rintro ⟨⟨e, he, hf, rfl⟩, htags⟩
    exact ⟨e, he, (isFresh_invalidate (hc key e he) later).2 ⟨hf, htags⟩, rfl⟩

theorem Timely.invalidate (hc : c.Timely) (tags : List Text) : (c.invalidate tags).Timely := by
  intro key e he tag version ht
  rw [entries_invalidate] at he
  rw [version_invalidate]
  exact Nat.le_add_right_of_le (hc key e he tag version ht)

end Invalidate

section Run

def step (c : MemoryCache) (e : TimedCall) : MemoryCache :=
  match e.call with
  | .get key => (c.get e.now key).2
  | .set key value ttl dependency => c.set e.now key value ttl dependency
  | .invalidate tags => c.invalidate tags

def after (c : MemoryCache) (history : List TimedCall) : MemoryCache := history.foldl step c

/-- A step of a cache that drops nothing, neither when it is read nor when something is set. -/
def hoardingStep (c : MemoryCache) (e : TimedCall) : MemoryCache :=
  match e.call with
  | .get _ => c
  | .set key value ttl dependency => c.putIn e.now key value ttl dependency
  | .invalidate tags => c.invalidate tags

def afterHoarding (c : MemoryCache) (history : List TimedCall) : MemoryCache :=
  history.foldl hoardingStep c

def AlikeFrom (now : ℕ) (c c' : MemoryCache) : Prop :=
  ∀ later, now ≤ later → ∀ key, c.holds? later key = c'.holds? later key

variable {c' : MemoryCache} {call : TimedCall} {history : List TimedCall}

theorem AlikeFrom.mono (h : AlikeFrom now c c') (hle : now ≤ later) : AlikeFrom later c c' :=
  fun time htime => h time (Nat.le_trans hle htime)

theorem AlikeFrom.trans {c'' : MemoryCache} (h : AlikeFrom now c c') (h' : AlikeFrom now c' c'') :
    AlikeFrom now c c'' :=
  fun later hle key => (h later hle key).trans (h' later hle key)

theorem Timely.step (hc : c.Timely) (e : TimedCall) : (c.step e).Timely := by
  rcases e with ⟨now, key | ⟨key, value, ttl, dependency⟩ | tags⟩
  · exact hc.get now key
  · exact hc.set now key value ttl dependency
  · exact hc.invalidate tags

theorem Timely.hoardingStep (hc : c.Timely) (e : TimedCall) : (c.hoardingStep e).Timely := by
  rcases e with ⟨now, key | ⟨key, value, ttl, dependency⟩ | tags⟩
  · exact hc
  · exact hc.putIn now key value ttl dependency
  · exact hc.invalidate tags

theorem step_alike (hc : c.Timely) (hc' : c'.Timely) (h : AlikeFrom now c c')
    (hle : now ≤ call.now) : AlikeFrom call.now (c.step call) (c'.step call) := by
  intro later hlater j
  have hsame := h later (Nat.le_trans hle hlater)
  rcases call with ⟨time, key | ⟨key, value, ttl, dependency⟩ | tags⟩
  · exact (holds?_get hlater key j).trans ((hsame j).trans (holds?_get hlater key j).symm)
  · by_cases hj : j = key
    · subst hj
      refine Option.ext fun h => ?_
      exact (holds?_set_self c _ _ _ _ _ _ h).trans (holds?_set_self c' _ _ _ _ _ _ h).symm
    · have hleft := holds?_set_of_ne (c := c) hlater hj value ttl dependency
      have hright := holds?_set_of_ne (c := c') hlater hj value ttl dependency
      exact hleft.trans ((hsame j).trans hright.symm)
  · refine Option.ext fun h => ?_
    have hleft := holds?_invalidate hc tags later j h
    have hright := holds?_invalidate hc' tags later j h
    rw [hsame j] at hleft
    exact hleft.trans hright.symm

theorem hoardingStep_alike (c : MemoryCache) (call : TimedCall) :
    AlikeFrom call.now (c.hoardingStep call) (c.step call) := by
  intro later hlater j
  rcases call with ⟨time, key | ⟨key, value, ttl, dependency⟩ | tags⟩
  · exact (holds?_get hlater key j).symm
  · exact holds?_putIn c time key value ttl dependency hlater j
  · rfl

theorem after_concat (c : MemoryCache) (history : List TimedCall) (call : TimedCall) :
    c.after (history ++ [call]) = (c.after history).step call := List.foldl_concat ..

theorem afterHoarding_concat (c : MemoryCache) (history : List TimedCall) (call : TimedCall) :
    c.afterHoarding (history ++ [call]) = (c.afterHoarding history).hoardingStep call :=
  List.foldl_concat ..

theorem timely_empty : ({} : MemoryCache).Timely := by
  intro key e he
  cases he

theorem Timely.after (hc : c.Timely) (history : List TimedCall) : (c.after history).Timely := by
  induction history using List.reverseRecOn with
  | nil => exact hc
  | append_singleton history call ih =>
    rw [after_concat]
    exact ih.step call

theorem Timely.afterHoarding (hc : c.Timely) (history : List TimedCall) :
    (c.afterHoarding history).Timely := by
  induction history using List.reverseRecOn with
  | nil => exact hc
  | append_singleton history call ih =>
    rw [afterHoarding_concat]
    exact ih.hoardingStep call

/-- What a cache holds is what its history asks it to keep, as long as that lasts. -/
theorem holds?_after (horder : InOrder history now) (hle : now ≤ later) (key : Text) (h : Holding) :
    (({} : MemoryCache).after history).holds? later key = some h ↔
      ∃ s, Keeping history key s ∧ h = s.holding ∧ h.Lasts later := by
  induction history using List.reverseRecOn generalizing now later key h with
  | nil =>
    constructor
    · intro hheld
      cases hheld
    · rintro ⟨s, hs, -⟩
      exact absurd hs (Keeping.not_nil key s)
  | append_singleton history call ih =>
    obtain ⟨hbefore, hcall⟩ := horder.concat
    have hlater := Nat.le_trans hcall hle
    rw [after_concat]
    rcases call with ⟨time, j | ⟨j, value, ttl, dependency⟩ | tags⟩
    · simp only [Keeping.concat_get]
      rw [← ih hbefore hlater, step, holds?_get hlater]
    · by_cases hj : j = key
      · subst hj
        simp only [Keeping.concat_set_self, exists_eq_left]
        exact holds?_set_self ..
      · simp only [Keeping.concat_set_of_ne hj]
        rw [← ih hbefore hlater, step, holds?_set_of_ne hlater (Ne.symm hj)]
    · simp only [Keeping.concat_invalidate]
      rw [step, holds?_invalidate (timely_empty.after history), ih hbefore hlater]
      constructor
      · rintro ⟨⟨s, hs, rfl, hlasts⟩, htags⟩
        exact ⟨s, ⟨hs, htags⟩, rfl, hlasts⟩
      · rintro ⟨s, ⟨hs, htags⟩, rfl, hlasts⟩
        exact ⟨⟨s, hs, rfl, hlasts⟩, htags⟩

theorem afterHoarding_alike (horder : InOrder history now) :
    AlikeFrom now (({} : MemoryCache).afterHoarding history) (({} : MemoryCache).after history) := by
  induction history using List.reverseRecOn generalizing now with
  | nil => exact fun _ _ _ => rfl
  | append_singleton history call ih =>
    obtain ⟨hbefore, hcall⟩ := horder.concat
    rw [after_concat, afterHoarding_concat]
    have hstep := step_alike (timely_empty.afterHoarding history) (timely_empty.after history)
      (ih hbefore) (Nat.le_refl call.now)
    exact ((hoardingStep_alike _ call).trans hstep).mono hcall

end Run

theorem mem_keys_set_iff (c : MemoryCache) (now : ℕ) (key value : Text) (ttl : ℕ)
    (dependency : Dependency) (j : Text) :
    j ∈ (c.set now key value ttl dependency).entries.keys ↔
      (((c.set now key value ttl dependency).get now j).1).isSome = true := by
  set c' := c.set now key value ttl dependency with hset
  have hfresh : ∀ e, c'.entries.get? j = some e → c'.isFresh now e = true := by
    intro e he
    rw [hset, get?_set] at he
    split_ifs at he with hj
    · cases he
      refine isFresh_iff.2 ⟨?_, fun tag version ht => version_eq_of_mem_made ht⟩
      rw [holding_made, Deposit.lasts_holding]
      dsimp only
      omega
    · exact (Option.filter_eq_some_iff.1 he).2
  rw [Table.mem_keys_iff, Table.contains, get_eq_holds?, Option.isSome_map, holds?,
    Option.isSome_map]
  cases he : c'.entries.get? j with
  | none => rfl
  | some e => simp [Option.filter, hfresh e he]

end MemoryCache

/-- The answers of a cache are those of its history: a look-up hits when the text that was set last
lasts and has kept its tags. Dropping entries that do not count changes no answer, and right after
something is set the stored keys are those whose look-ups hit. -/
theorem get_iff_keeping {history : List TimedCall} {now : ℕ} (horder : InOrder history now) :
    (∀ key value, ((({} : MemoryCache).after history).get now key).1 = some value ↔
      ∃ s, Keeping history key s ∧ s.value = value ∧ (s.ttl = 0 ∨ now < s.stored + s.ttl)) ∧
    (∀ key, ((({} : MemoryCache).afterHoarding history).get now key).1 =
      ((({} : MemoryCache).after history).get now key).1) ∧
    ∀ key value ttl dependency,
      let c := (({} : MemoryCache).after history).set now key value ttl dependency
      (∀ j, j ∈ c.entries.keys ↔ ((c.get now j).1).isSome = true) ∧
        c.size = { j | ((c.get now j).1).isSome = true }.ncard := by
  refine ⟨fun key value => ?_, fun key => ?_, fun key value ttl dependency => ?_⟩
  · rw [MemoryCache.get_eq_holds?, Option.map_eq_some_iff]
    simp only [MemoryCache.holds?_after horder (Nat.le_refl now)]
    constructor
    · rintro ⟨h, ⟨s, hs, rfl, hlasts⟩, rfl⟩
      exact ⟨s, hs, rfl, (s.lasts_holding now).1 hlasts⟩
    · rintro ⟨s, hs, rfl, hlasts⟩
      exact ⟨_, ⟨s, hs, rfl, (s.lasts_holding now).2 hlasts⟩, rfl⟩
  · rw [MemoryCache.get_eq_holds?, MemoryCache.get_eq_holds?,
      MemoryCache.afterHoarding_alike horder now (Nat.le_refl now)]
  · have hkeys := (({} : MemoryCache).after history).mem_keys_set_iff now key value ttl dependency
    refine ⟨hkeys, ?_⟩
    simp only [← hkeys]
    exact Table.size_eq_ncard_keys _

def pageHistory : List TimedCall := [
  ⟨0, .set "page".toList "old".toList 20 ⟨["chunks".toList]⟩⟩,
  ⟨5, .set "menu".toList "tea".toList 0 {}⟩,
  ⟨6, .invalidate ["chunks".toList, "forms".toList]⟩,
  ⟨6, .set "page".toList "new".toList 4 ⟨["chunks".toList]⟩⟩,
  ⟨8, .get "menu".toList⟩]

theorem get_iff_keeping_page :
    InOrder pageHistory 9 ∧ InOrder pageHistory 10 ∧
    (∃ s, Keeping pageHistory "page".toList s ∧ s.value = "new".toList ∧
      (s.ttl = 0 ∨ 9 < s.stored + s.ttl)) ∧
    (¬ ∃ s, Keeping pageHistory "page".toList s ∧ s.value = "new".toList ∧
      (s.ttl = 0 ∨ 10 < s.stored + s.ttl)) ∧
    "page".toList ∉ ((({} : MemoryCache).after pageHistory).set 10 "menu".toList "milk".toList 0
      {}).entries.keys := by
  have h₉ : InOrder pageHistory 9 := by
    unfold InOrder
    decide
  have h₁₀ : InOrder pageHistory 10 := by
    unfold InOrder
    decide
  obtain ⟨hanswer, -, -⟩ := get_iff_keeping h₉
  obtain ⟨hanswer', -, hkeys⟩ := get_iff_keeping h₁₀
  refine ⟨h₉, h₁₀, ?_, ?_, ?_⟩
  · rw [← hanswer]
    decide +kernel
  · rw [← hanswer']
    decide +kernel
  · rw [(hkeys _ _ _ _).1]
    decide +kernel

end ContentWeave
