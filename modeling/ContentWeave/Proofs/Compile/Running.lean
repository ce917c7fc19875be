import ContentWeave.Compiler
import Mathlib.Tactic.Common

/-!
# Computations over a state

The work of compilers, stores and caches is done in a monad of the caller's choice. Here it is a
state, so that a computation is a function. `Keeps` says that a computation keeps an invariant,
whether it succeeds or fails, and that what it returns satisfies a condition; `Leads` says the same
of computations that also use resident templates. The rules follow the way computations are put
together.
-/

namespace ContentWeave

variable {σ ε α β : Type}

def runOn (x : ExceptT ε (StateM σ) α) (s : σ) : Except ε α × σ := x.run.run s

theorem runOn_bind (x : ExceptT ε (StateM σ) α) (f : α → ExceptT ε (StateM σ) β) (s : σ) :
    runOn (x >>= f) s = match runOn x s with
      | (.ok a, s') => runOn (f a) s'
      | (.error e, s') => (.error e, s') := by
  unfold runOn ExceptT.run StateT.run
  simp only [bind, ExceptT.bind, ExceptT.mk, StateT.bind, ExceptT.bindCont]
  cases x s with
  | mk r s' => cases r <;> rfl

theorem runOn_map (f : α → β) (x : ExceptT ε (StateM σ) α) (s : σ) :
    runOn (f <$> x) s = ((runOn x s).1.map f, (runOn x s).2) := by
  rw [← bind_pure_comp, runOn_bind]
  rcases runOn x s with ⟨⟨e⟩ | ⟨a⟩, s'⟩ <;> rfl

/-- From a state with `inv`, `x` leads to one with `inv`, and what it returns satisfies `post`. -/
def Keeps (inv : σ → Prop) (x : ExceptT ε (StateM σ) α) (post : α → Prop) : Prop :=
  ∀ s, inv s → inv (runOn x s).2 ∧ ∀ a, (runOn x s).1 = .ok a → post a

namespace Keeps

variable {inv : σ → Prop} {x : ExceptT ε (StateM σ) α} {post mid : α → Prop}

protected theorem pure {a : α} (h : post a) :
    Keeps inv (Pure.pure a : ExceptT ε (StateM σ) α) post := by
  intro s hs
  refine ⟨hs, fun b hb => ?_⟩
  cases hb
  exact h

protected theorem throw (e : ε) : Keeps inv (throw e : ExceptT ε (StateM σ) α) post := by
  intro s hs
  exact ⟨hs, fun b hb => by cases hb⟩

protected theorem bind {f : α → ExceptT ε (StateM σ) β} {post : β → Prop} (hx : Keeps inv x mid)
    (hf : ∀ a, mid a → Keeps inv (f a) post) : Keeps inv (x >>= f) post := by
  intro s hs
  obtain ⟨hi, hm⟩ := hx s hs
  rw [runOn_bind]
  cases hr : runOn x s with
  | mk r s' =>
    rw [hr] at hi hm
    cases r with
    | error e => exact ⟨hi, fun b hb => by cases hb⟩
    | ok a => exact hf a (hm a rfl) s' hi

protected theorem mono (hx : Keeps inv x mid) (h : ∀ a, mid a → post a) : Keeps inv x post := by
  intro s hs
  obtain ⟨hi, hm⟩ := hx s hs
  exact ⟨hi, fun a ha => h a (hm a ha)⟩

protected theorem map {f : α → β} {post : β → Prop} (hx : Keeps inv x mid)
    (h : ∀ a, mid a → post (f a)) : Keeps inv (f <$> x) post := by
  rw [← bind_pure_comp]
  exact Keeps.bind hx fun a ha => Keeps.pure (h a ha)

end Keeps

namespace Compile

/-- The result of a computation, and the resident templates and the state that it leaves. -/
def runFrom (x : Compile (StateM σ) α) (t : TemplateCache) (s : σ) :
    Except CompileError α × TemplateCache × σ :=
  let r := (x.run.run t).run s
  (r.1.1, r.1.2, r.2)

theorem runFrom_pure (a : α) (t : TemplateCache) (s : σ) :
    runFrom (pure a) t s = (.ok a, t, s) := rfl

theorem runFrom_bind (x : Compile (StateM σ) α) (f : α → Compile (StateM σ) β)
    (t : TemplateCache) (s : σ) :
    runFrom (x >>= f) t s = match runFrom x t s with
      | (.ok a, t', s') => runFrom (f a) t' s'
      | (.error e, t', s') => (.error e, t', s') := by
  unfold runFrom ExceptT.run StateT.run
  simp only [bind, ExceptT.bind, ExceptT.mk, StateT.bind, ExceptT.bindCont]
  rcases x t s with ⟨⟨r, t'⟩, s'⟩
  cases r <;> rfl

theorem runFrom_bind_pure (x : Compile (StateM σ) α) (f : α → β) (t : TemplateCache) (s : σ) :
    runFrom (x >>= fun a => pure (f a)) t s = ((x.runFrom t s).1.map f, (x.runFrom t s).2) := by
  rw [runFrom_bind]
  rcases x.runFrom t s with ⟨⟨e⟩ | ⟨a⟩, t', s'⟩
  · rfl
  · rfl

theorem runFrom_ofCache (x : ExceptT CacheError (StateM σ) α) (t : TemplateCache) (s : σ) :
    runFrom (ofCache x) t s = ((runOn x s).1.mapError .cache, t, (runOn x s).2) := rfl

theorem runFrom_ofStore (x : ExceptT StorageError (StateM σ) α) (t : TemplateCache) (s : σ) :
    runFrom (ofStore x) t s = ((runOn x s).1.mapError .storage, t, (runOn x s).2) := rfl

theorem runFrom_get (t : TemplateCache) (s : σ) :
    runFrom (getThe TemplateCache : Compile (StateM σ) TemplateCache) t s = (.ok t, t, s) := rfl

theorem runFrom_modify (f : TemplateCache → TemplateCache) (t : TemplateCache) (s : σ) :
    runFrom (modifyThe TemplateCache f : Compile (StateM σ) Unit) t s = (.ok (), f t, s) := rfl

theorem runFrom_bind_eq_ok {x : Compile (StateM σ) α} {f : α → Compile (StateM σ) β}
    {t t' : TemplateCache} {s s' : σ} {b : β} (h : runFrom (x >>= f) t s = (.ok b, t', s')) :
    ∃ a t₁ s₁, runFrom x t s = (.ok a, t₁, s₁) ∧ runFrom (f a) t₁ s₁ = (.ok b, t', s') := by
  rw [runFrom_bind] at h
  rcases hx : runFrom x t s with ⟨r, t₁, s₁⟩
  rw [hx] at h
  cases r with
  | error e => cases h
  | ok a => exact ⟨a, t₁, s₁, rfl, h⟩

/-- From resident templates with `res` and `pre` and a state with `inv`, `x` leads to templates with
`res` and a state with `inv`, whether it succeeds or fails; what it returns satisfies `post`,
together with the templates that it leaves. -/
def Leads (res : TemplateCache → Prop) (inv : σ → Prop) (pre : TemplateCache → Prop)
    (x : Compile (StateM σ) α) (post : α → TemplateCache → Prop) : Prop :=
  ∀ t s, res t → inv s → pre t →
    res (x.runFrom t s).2.1 ∧ inv (x.runFrom t s).2.2 ∧
      ∀ a, (x.runFrom t s).1 = .ok a → post a (x.runFrom t s).2.1

namespace Leads

variable {res : TemplateCache → Prop} {inv : σ → Prop} {pre : TemplateCache → Prop}
variable {post mid : α → TemplateCache → Prop}

protected theorem pure {a : α} (h : ∀ t, res t → pre t → post a t) :
    Leads res inv pre (Pure.pure a : Compile (StateM σ) α) post := by
  intro t s hres hinv hpre
  refine ⟨hres, hinv, fun b hb => ?_⟩
  cases hb
  exact h t hres hpre

protected theorem bind {x : Compile (StateM σ) α} {f : α → Compile (StateM σ) β}
    {post : β → TemplateCache → Prop} (hx : Leads res inv pre x mid)
    (hf : ∀ a, Leads res inv (mid a) (f a) post) : Leads res inv pre (x >>= f) post := by
  intro t s hres hinv hpre
  obtain ⟨hr, hi, hm⟩ := hx t s hres hinv hpre
  rw [runFrom_bind]
  rcases hrun : x.runFrom t s with ⟨r, t', s'⟩
  rw [hrun] at hr hi hm
  cases r with
  | error e => exact ⟨hr, hi, fun b hb => by cases hb⟩
  | ok a => exact hf a t' s' hr hi (hm a rfl)

protected theorem assume {x : Compile (StateM σ) α} {fact : Prop}
    (h : fact → Leads res inv pre x post) : Leads res inv (fun t => pre t ∧ fact) x post :=
  fun t s hres hinv hpre => h hpre.2 t s hres hinv hpre.1

protected theorem mono {x : Compile (StateM σ) α} (hx : Leads res inv pre x mid)
    (h : ∀ a t, res t → mid a t → post a t) : Leads res inv pre x post := by
  intro t s hres hinv hpre
  obtain ⟨hr, hi, hm⟩ := hx t s hres hinv hpre
  exact ⟨hr, hi, fun a ha => h a _ hr (hm a ha)⟩

protected theorem ofCache {x : ExceptT CacheError (StateM σ) α} {found : α → Prop}
    (hx : Keeps inv x found) :
    Leads res inv pre (ofCache x) fun a t => pre t ∧ found a := by
  intro t s hres hinv hpre
  obtain ⟨hi, hm⟩ := hx s hinv
  rw [runFrom_ofCache]
  refine ⟨hres, hi, fun a ha => ⟨hpre, hm a ?_⟩⟩
  cases hr : (runOn x s).1 with
  | error e => simp [hr, Except.mapError] at ha
  | ok b => simpa [hr, Except.mapError] using ha

protected theorem ofStore {x : ExceptT StorageError (StateM σ) α} {found : α → Prop}
    (hx : Keeps inv x found) :
    Leads res inv pre (ofStore x) fun a t => pre t ∧ found a := by
  intro t s hres hinv hpre
  obtain ⟨hi, hm⟩ := hx s hinv
  rw [runFrom_ofStore]
  refine ⟨hres, hi, fun a ha => ⟨hpre, hm a ?_⟩⟩
  cases hr : (runOn x s).1 with
  | error e => simp [hr, Except.mapError] at ha
  | ok b => simpa [hr, Except.mapError] using ha

protected theorem get :
    Leads res inv pre (getThe TemplateCache : Compile (StateM σ) TemplateCache)
      fun a t => a = t ∧ pre t := by
  intro t s hres hinv hpre
  rw [runFrom_get]
  refine ⟨hres, hinv, fun a ha => ?_⟩
  cases ha
  exact ⟨rfl, hpre⟩

protected theorem modify {f : TemplateCache → TemplateCache} {post : Unit → TemplateCache → Prop}
    (h : ∀ t, res t → pre t → res (f t) ∧ post () (f t)) :
    Leads res inv pre (modifyThe TemplateCache f : Compile (StateM σ) Unit) post := by
  intro t s hres hinv hpre
  rw [runFrom_modify]
  obtain ⟨hr, hp⟩ := h t hres hpre
  exact ⟨hr, hinv, fun _ _ => hp⟩

end Leads

end Compile
end ContentWeave
