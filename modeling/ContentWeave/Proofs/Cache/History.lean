import ContentWeave.Cache.Basic
import Mathlib.Tactic.Common

/-!
# What the calls of a cache ask it to keep

A history is a list of calls with their times, the first one first. What was set last under a key is
to be kept until one of its tags is invalidated. How a history goes on says what it keeps then, so
that a cache is compared with histories call by call.
-/

namespace ContentWeave

inductive CacheCall
  | get (key : Text)
  | set (key value : Text) (ttl : ℕ) (dependency : Dependency)
  | invalidate (tags : List Text)

namespace CacheCall

def Sets (key : Text) : CacheCall → Prop
  | set j _ _ _ => j = key
  | _ => False

def Invalidates (tag : Text) : CacheCall → Prop
  | invalidate tags => tag ∈ tags
  | _ => False

def keys : CacheCall → List Text
  | get key => [key]
  | set key _ _ _ => [key]
  | invalidate _ => []

def invalidated : CacheCall → List Text
  | invalidate tags => tags
  | _ => []

def tags : CacheCall → List Text
  | set _ _ _ dependency => dependency.tags
  | call => call.invalidated

end CacheCall

structure TimedCall where
  now : ℕ
  call : CacheCall

def InOrder (history : List TimedCall) (now : ℕ) : Prop :=
  (history.map TimedCall.now ++ [now]).Pairwise (· ≤ ·)

def invalidations (history : List TimedCall) (tag : Text) : ℕ :=
  (history.flatMap fun e => e.call.invalidated).count tag

theorem invalidations_concat (history : List TimedCall) (e : TimedCall) (tag : Text) :
    invalidations (history ++ [e]) tag =
      invalidations history tag + e.call.invalidated.count tag := by
  simp [invalidations, List.count_append]

theorem InOrder.concat {history : List TimedCall} {e : TimedCall} {now : ℕ}
    (h : InOrder (history ++ [e]) now) : InOrder history e.now ∧ e.now ≤ now := by
  unfold InOrder at h
  rw [List.map_append, List.map_singleton, List.pairwise_append] at h
  exact ⟨h.1, h.2.2 _ (by simp) _ (by simp)⟩

structure Deposit where
  stored : ℕ
  value : Text
  ttl : ℕ
  dependency : Dependency

structure Holding where
  value : Text
  expires : Option ℕ
  tags : List Text

def Holding.Lasts (h : Holding) (now : ℕ) : Prop := ∀ t ∈ h.expires, now < t

/-- Of entries that are not ahead of the versions of their tags, those stay current that were current
and have none of the tags whose versions have been raised. -/
theorem current_iff_of_invalidated {versions versions' : Text → ℕ} {tags : List Text}
    {recorded : List (Text × ℕ)}
    (hbehind : ∀ tag version, (tag, version) ∈ recorded → version ≤ versions tag)
    (hraised : ∀ tag version, (tag, version) ∈ recorded →
      versions' tag = versions tag + tags.count tag) :
    (∀ tag version, (tag, version) ∈ recorded → versions' tag = version) ↔
      (∀ tag version, (tag, version) ∈ recorded → versions tag = version) ∧
        ∀ tag ∈ recorded.map Prod.fst, tag ∉ tags := by
  constructor
  · intro h
    have hcount : ∀ tag version, (tag, version) ∈ recorded →
        versions tag = version ∧ tags.count tag = 0 := by
      intro tag version hmem
      have hsum := h tag version hmem
      have hle := hbehind tag version hmem
      rw [hraised tag version hmem] at hsum
      omega
    refine ⟨fun tag version hmem => (hcount tag version hmem).1, fun tag hmem => ?_⟩
    obtain ⟨⟨t, version⟩, hentry, rfl⟩ := List.mem_map.1 hmem
    exact List.count_eq_zero.1 (hcount t version hentry).2
  · rintro ⟨hcurrent, htags⟩ tag version hmem
    have hcount : tags.count tag = 0 :=
      List.count_eq_zero.2 (htags tag (List.mem_map.2 ⟨_, hmem, rfl⟩))
    rw [hraised tag version hmem, hcount, hcurrent tag version hmem, Nat.add_zero]

/-- `s` is what was set under a key last, and none of its tags has been invalidated since. -/
def Keeping (history : List TimedCall) (key : Text) (s : Deposit) : Prop :=
  ∃ before since, history = before ++ ⟨s.stored, .set key s.value s.ttl s.dependency⟩ :: since ∧
    ∀ e ∈ since, ¬ e.call.Sets key ∧ ∀ tag ∈ s.dependency.tags, ¬ e.call.Invalidates tag

namespace Keeping

variable {history : List TimedCall} {now ttl : ℕ} {key j value : Text} {s : Deposit}
variable {dependency : Dependency} {tags : List Text} {e : TimedCall}

theorem not_nil (key : Text) (s : Deposit) : ¬ Keeping [] key s := by
  rintro ⟨before, since, h, -⟩
  simp at h

theorem concat_eq_split {history before since : List TimedCall} {e x : TimedCall}
    (h : history ++ [e] = before ++ x :: since) :
    (e = x ∧ since = []) ∨ ∃ since', since = since' ++ [e] ∧ history = before ++ x :: since' := by
  rcases List.eq_nil_or_concat since with rfl | ⟨since', last, rfl⟩
  · exact .inl ⟨List.singleton_inj.1 (List.append_inj_right' h rfl), rfl⟩
  · rw [List.concat_eq_append, ← List.cons_append, ← List.append_assoc] at h
    have hlast : e = last := List.singleton_inj.1 (List.append_inj_right' h rfl)
    exact .inr ⟨since', by rw [hlast, List.concat_eq_append], List.append_inj_left' h rfl⟩

theorem concat_of_idle (hset : ¬ e.call.Sets key)
    (htags : ∀ tag ∈ s.dependency.tags, ¬ e.call.Invalidates tag) :
    Keeping (history ++ [e]) key s ↔ Keeping history key s := by
  constructor
  · rintro ⟨before, since, h, hsince⟩
    rcases concat_eq_split h with ⟨rfl, rfl⟩ | ⟨since', rfl, rfl⟩
    · exact absurd rfl hset
    · exact ⟨before, since', rfl, fun c hc => hsince c (by simp [hc])⟩
  · rintro ⟨before, since, rfl, hsince⟩
    refine ⟨before, since ++ [e], by simp, fun c hc => ?_⟩
    rcases List.mem_append.1 hc with hc | hc
    · exact hsince c hc
    · rw [List.mem_singleton] at hc
      subst hc
      exact ⟨hset, htags⟩

theorem concat_get : Keeping (history ++ [⟨now, .get j⟩]) key s ↔ Keeping history key s :=
  concat_of_idle id fun _ _ => id

theorem concat_set_self :
    Keeping (history ++ [⟨now, .set key value ttl dependency⟩]) key s ↔
      s = ⟨now, value, ttl, dependency⟩ := by
  constructor
  · rintro ⟨before, since, h, hsince⟩
    rcases concat_eq_split h with ⟨hlast, rfl⟩ | ⟨since', rfl, -⟩
    · cases s
      cases hlast
      rfl
    · have hset : CacheCall.Sets key (.set key value ttl dependency) := rfl
      exact absurd hset (hsince _ (List.mem_append_right _ (List.mem_singleton.2 rfl))).1
  · rintro rfl
    exact ⟨history, [], rfl, by simp⟩

theorem concat_set_of_ne (h : j ≠ key) :
    Keeping (history ++ [⟨now, .set j value ttl dependency⟩]) key s ↔ Keeping history key s :=
  concat_of_idle h fun _ _ => id

theorem concat_invalidate :
    Keeping (history ++ [⟨now, .invalidate tags⟩]) key s ↔
      Keeping history key s ∧ ∀ tag ∈ s.dependency.tags, tag ∉ tags := by
  constructor
  · rintro ⟨before, since, h, hsince⟩
    rcases concat_eq_split h with ⟨hlast, -⟩ | ⟨since', rfl, rfl⟩
    · cases hlast
    · have htags := (hsince _ (List.mem_append_right _ (List.mem_singleton.2 rfl))).2
      exact ⟨⟨before, since', rfl, fun c hc => hsince c (by simp [hc])⟩, htags⟩
  · rintro ⟨h, htags⟩
    exact (concat_of_idle id htags).2 h

end Keeping
end ContentWeave
