import ContentWeave.Proofs.Compile.Stages

/-!
# What is resident stays

One template cache is used over a store and an external cache that answer as they like: they can
change and fail at any time. Their questions are recorded. Once a look-up has succeeded, or a preload
that had the key in its set, the key is resident with its first template. It stays so, whatever is
called later, and is never asked for again.
-/

namespace ContentWeave

open TemplateSource (preloadKey lookupKey)

namespace Table

variable {κ ν : Type} [DecidableEq κ]

theorem erase_entries_of_get?_eq_none {t : Table κ ν} {k : κ} (h : t.get? k = none) :
    (t.erase k).entries = t.entries := by
  rw [get?, lookup_eq_none_iff] at h
  refine List.filter_eq_self.2 fun e he => decide_eq_true ?_
  intro hek
  exact h (List.mem_map.2 ⟨e, he, hek⟩)

theorem size_insertNew (t : Table κ ν) (k : κ) (v : ν) :
    (t.insertNew k v).size = if t.contains k then t.size else t.size + 1 := by
  unfold insertNew
  cases hk : t.contains k with
  | true => rfl
  | false =>
    have hnone : t.get? k = none := by simpa [contains] using hk
    simp [size, insert, erase_entries_of_get?_eq_none hnone]

end Table

namespace TemplateCache

structure ExtendedBy (t t' : TemplateCache) : Prop where
  resident : ∀ key template, t.resident.get? key = some template →
    t'.resident.get? key = some template
  preloaded : t.preloaded = true → t'.preloaded = true
  size : t.size ≤ t'.size

namespace ExtendedBy

variable {t t' t'' : TemplateCache}

protected theorem refl (t : TemplateCache) : t.ExtendedBy t :=
  ⟨fun _ _ h => h, fun h => h, Nat.le_refl _⟩

protected theorem trans (h : t.ExtendedBy t') (h' : t'.ExtendedBy t'') : t.ExtendedBy t'' :=
  ⟨fun key template hk => h'.resident key template (h.resident key template hk),
    fun hp => h'.preloaded (h.preloaded hp), Nat.le_trans h.size h'.size⟩

theorem remember (t : TemplateCache) (key : Text) (template : Option Text) :
    t.ExtendedBy (t.remember key template) where
  resident j x hj := by
    rw [get?_remember]
    by_cases hjk : j = key
    · subst hjk
      simp [hj]
    · simp [hjk, hj]
  preloaded h := h
  size := by
    have hsize := t.resident.size_insertNew key template
    unfold TemplateCache.size TemplateCache.remember
    rw [hsize]
    split_ifs <;> omega

theorem foldl_remember (l : List (Text × Text)) (t : TemplateCache) :
    t.ExtendedBy (l.foldl (fun t (key, template) => t.remember key (some template)) t) := by
  induction l generalizing t with
  | nil => exact .refl t
  | cons e l ih => exact (remember t e.1 (some e.2)).trans (ih _)

theorem rememberAll (t : TemplateCache) (templates : Table Text Text) :
    t.ExtendedBy (t.rememberAll templates) :=
  have h := foldl_remember templates.entries t
  ⟨h.resident, fun _ => rfl, h.size⟩

end ExtendedBy
end TemplateCache

inductive Question
  | find (key : Text)
  | findPreloaded
  | get (cacheKey : Text)
  | set (cacheKey : Text)
deriving DecidableEq

def Question.isAbout (key : Text) : Question → Bool
  | find j => j = key
  | findPreloaded => false
  | get cacheKey | set cacheKey => cacheKey = lookupKey key

/-- A state with the questions asked so far, the first one first. -/
structure Recorded (σ : Type) where
  state : σ
  questions : List Question := []

namespace Recorded

variable {σ ε α : Type}

def asking (q : Question) (x : ExceptT ε (StateM σ) α) : ExceptT ε (StateM (Recorded σ)) α :=
  ExceptT.mk (StateT.modifyGet fun r =>
    ((runOn x r.state).1, ⟨(runOn x r.state).2, r.questions ++ [q]⟩))

def about (r : Recorded σ) (key : Text) : List Question := r.questions.filter (·.isAbout key)

theorem runOn_asking (q : Question) (x : ExceptT ε (StateM σ) α) (r : Recorded σ) :
    runOn (asking q x) r = ((runOn x r.state).1, ⟨(runOn x r.state).2, r.questions ++ [q]⟩) := rfl

def Allows (inv : Recorded σ → Prop) (q : Question) : Prop :=
  ∀ r s, inv r → inv ⟨s, r.questions ++ [q]⟩

theorem allows_true (q : Question) : Allows (fun _ : Recorded σ => True) q := fun _ _ _ => trivial

theorem allows_about {key : Text} {asked : List Question} {q : Question}
    (hq : q.isAbout key = false) : Allows (fun r : Recorded σ => r.about key = asked) q := by
  intro r s hr
  rw [← hr]
  simp [about, hq]

theorem asking_keeps {inv : Recorded σ → Prop} {q : Question} (hq : Allows inv q)
    (x : ExceptT ε (StateM σ) α) : Keeps inv (asking q x) fun _ => True := by
  intro r hr
  rw [runOn_asking]
  exact ⟨hq r _ hr, fun _ _ => trivial⟩

end Recorded

namespace TemplateSource

variable {σ : Type}

def recorded (source : TemplateSource (StateM σ)) : TemplateSource (StateM (Recorded σ)) where
  store :=
    { find := fun key => Recorded.asking (.find key) (source.store.find key)
      findPreloaded := Recorded.asking .findPreloaded source.store.findPreloaded }
  cache :=
    { get := fun key => Recorded.asking (.get key) (source.cache.get key)
      set := fun key value ttl dependency =>
        Recorded.asking (.set key) (source.cache.set key value ttl dependency)
      invalidate := fun _ => return }
  ttl := source.ttl

/-- The set of a preload: what the external cache has under its key, or else what the store
lists. -/
inductive Offers (source : TemplateSource (StateM σ)) (s : σ) : Table Text Text → Prop
  | cached {value : Text} {templates : Table Text Text}
      (hget : (runOn (source.cache.get preloadKey) s).1 = .ok (some value))
      (hdecode : Json.Codec.texts.decode? value = some templates) : Offers source s templates
  | listed {found : Option Text} {pairs : List (Text × Text)}
      (hget : (runOn (source.cache.get preloadKey) s).1 = .ok found)
      (hmiss : found.bind Json.Codec.texts.decode? = none)
      (hlist : (runOn source.store.findPreloaded (runOn (source.cache.get preloadKey) s).2).1 =
        .ok pairs) : Offers source s (Table.ofList pairs)

theorem Offers.recorded {source : TemplateSource (StateM σ)} {r : Recorded σ}
    {templates : Table Text Text} (h : source.Offers r.state templates) :
    source.recorded.Offers r templates := by
  cases h with
  | cached hget hdecode => exact .cached hget hdecode
  | listed hget hmiss hlist => exact .listed hget hmiss hlist

theorem eq_of_offers {source : TemplateSource (StateM σ)} {s s' : σ} {t t' : TemplateCache}
    {templates templates' : Table Text Text} (h : source.Offers s templates)
    (hrun : (source.throughCache Json.Codec.texts preloadKey
      (Table.ofList <$> source.store.findPreloaded)).runFrom t s = (.ok templates', t', s')) :
    templates' = templates := by
  rw [runFrom_throughCache, Cache.runOn_getAs] at hrun
  cases h with
  | cached hget hdecode =>
    simp only [hget, Except.map, Option.bind_some, hdecode] at hrun
    cases hrun
    rfl
  | listed hget hmiss hlist =>
    simp only [hget, Except.map, hmiss, runOn_map, hlist] at hrun
    split at hrun
    · cases hrun
    · cases hrun
      rfl

section Extends

variable (source : TemplateSource (StateM σ)) {inv : Recorded σ → Prop} {t₀ : TemplateCache}

theorem recorded_sound {keys : Set Text} (hget : ∀ k ∈ keys, Recorded.Allows inv (.get k))
    (hset : ∀ k ∈ keys, Recorded.Allows inv (.set k)) :
    source.recorded.cache.Sound keys (fun _ _ => True) inv where
  get k hk := Keeps.mono (Recorded.asking_keeps (hget k hk) _) fun _ _ _ _ => trivial
  set k hk _ _ _ _ := Recorded.asking_keeps (hset k hk) _
  invalidate _ := Keeps.pure trivial

theorem preload_extends (hget : Recorded.Allows inv (.get preloadKey))
    (hset : Recorded.Allows inv (.set preloadKey)) (hlist : Recorded.Allows inv .findPreloaded) :
    Compile.Leads t₀.ExtendedBy inv (fun _ => True) source.recorded.preload
      fun _ t => t.preloaded = true := by
  have hcache : source.recorded.cache.Sound {preloadKey} (fun _ _ => True) inv :=
    recorded_sound source (fun k hk => hk ▸ hget) fun k hk => hk ▸ hset
  have hask : Keeps inv (Table.ofList <$> source.recorded.store.findPreloaded) fun _ => True :=
    Keeps.map (Recorded.asking_keeps hlist _) fun _ _ => trivial
  refine preload_leads (fun _ => True) (fun pre => throughCache_leads hcache rfl hask
    (fun _ _ => trivial) (fun _ _ _ _ => trivial) fun _ _ => trivial) ?_ ?_
  · exact fun t _ _ hp => hp
  · exact fun t templates ht _ _ => ⟨ht.trans (.rememberAll t templates), rfl⟩

theorem fetch_extends {key : Text} (hget : Recorded.Allows inv (.get (lookupKey key)))
    (hset : Recorded.Allows inv (.set (lookupKey key)))
    (hfind : Recorded.Allows inv (.find key)) :
    Compile.Leads t₀.ExtendedBy inv (fun _ => True) (source.recorded.fetch key)
      fun template t => t.resident.get? key = some template := by
  have hcache : source.recorded.cache.Sound {lookupKey key} (fun _ _ => True) inv :=
    recorded_sound source (fun k hk => hk ▸ hget) fun k hk => hk ▸ hset
  have hask : Keeps inv (source.recorded.store.find key) fun _ => True :=
    Recorded.asking_keeps hfind _
  refine fetch_leads (fun _ => True) (fun pre => throughCache_leads hcache rfl hask
    (fun _ _ => trivial) (fun _ _ _ _ => trivial) fun _ _ => trivial) ?_ ?_
  · exact fun t template _ _ hk => hk
  · intro t template ht _ hnone _
    refine ⟨ht.trans (.remember t key template), ?_⟩
    simp [TemplateCache.get?_remember, hnone]

end Extends

end TemplateSource

/-- One call of the user of a template cache, or a change of what lies behind it. -/
inductive Usage.Event (σ : Type)
  | fetch (key : Text)
  | preload
  | change (f : σ → σ)

structure Usage (σ : Type) where
  resident : TemplateCache := {}
  recorded : Recorded σ

namespace Usage

variable {σ α : Type}

def call (u : Usage σ) (x : Compile (StateM (Recorded σ)) α) :
    Except CompileError α × Usage σ :=
  let outcome := x.runFrom u.resident u.recorded
  (outcome.1, ⟨outcome.2.1, outcome.2.2⟩)

def step (source : TemplateSource (StateM σ)) (u : Usage σ) : Event σ → Usage σ
  | .fetch key => (u.call (source.recorded.fetch key)).2
  | .preload => (u.call source.recorded.preload).2
  | .change f => { u with recorded.state := f u.recorded.state }

def after (source : TemplateSource (StateM σ)) (u : Usage σ) (events : List (Event σ)) : Usage σ :=
  events.foldl (step source) u

/-- The calls that make a key resident, with the template that they find for it. -/
inductive Populates (source : TemplateSource (StateM σ)) (u : Usage σ) :
    Event σ → Text → Option Text → Prop
  | fetch {key : Text} {template : Option Text}
      (hok : (u.call (source.recorded.fetch key)).1 = .ok template) :
      Populates source u (.fetch key) key template
  | preload {templates : Table Text Text} {key template : Text}
      (hfirst : u.resident.preloaded = false) (hok : (u.call source.recorded.preload).1 = .ok ())
      (hset : source.Offers u.recorded.state templates)
      (hkey : templates.get? key = some template) : Populates source u .preload key (some template)

variable (source : TemplateSource (StateM σ)) {key : Text} {template : Option Text}

theorem call_fetch_of_resident {u : Usage σ} (h : u.resident.resident.get? key = some template) :
    u.call (source.recorded.fetch key) = (.ok template, u) := by
  simp only [call, TemplateSource.runFrom_fetch, h]

theorem call_preload_of_preloaded {u : Usage σ} (h : u.resident.preloaded = true) :
    u.call source.recorded.preload = (.ok (), u) := by
  simp only [call, TemplateSource.runFrom_preload, h, if_true]

theorem step_extends (u : Usage σ) (e : Event σ) :
    u.resident.ExtendedBy (u.step source e).resident := by
  have hall := Recorded.allows_true (σ := σ)
  cases e with
  | fetch key =>
    exact (TemplateSource.fetch_extends source (hall _) (hall _) (hall _) u.resident u.recorded
      (.refl _) trivial trivial).1
  | preload =>
    exact (TemplateSource.preload_extends source (hall _) (hall _) (hall _) u.resident u.recorded
      (.refl _) trivial trivial).1
  | change f => exact .refl _

theorem after_extends (u : Usage σ) (events : List (Event σ)) :
    u.resident.ExtendedBy (u.after source events).resident := by
  induction events generalizing u with
  | nil => exact .refl _
  | cons e events ih => exact (step_extends source u e).trans (ih _)

theorem step_about {u : Usage σ} (h : u.resident.resident.get? key = some template) (e : Event σ) :
    (u.step source e).recorded.about key = u.recorded.about key := by
  have hallows : ∀ {q : Question}, q.isAbout key = false →
      Recorded.Allows (fun r : Recorded σ => r.about key = u.recorded.about key) q :=
    Recorded.allows_about
  cases e with
  | fetch j =>
    by_cases hj : j = key
    · subst hj
      have hcall := call_fetch_of_resident source h
      rw [step, hcall]
    · have hlookup : lookupKey j ≠ lookupKey key := TemplateSource.lookupKey_injective.ne hj
      exact (TemplateSource.fetch_extends source (hallows (decide_eq_false hlookup))
        (hallows (decide_eq_false hlookup)) (hallows (decide_eq_false hj)) u.resident u.recorded
        (.refl _) rfl trivial).2.1
  | preload =>
    have hpreload := (TemplateSource.lookupKey_ne_preloadKey key).symm
    exact (TemplateSource.preload_extends source (hallows (decide_eq_false hpreload))
      (hallows (decide_eq_false hpreload)) (hallows rfl) u.resident u.recorded (.refl _) rfl
      trivial).2.1
  | change f => rfl

theorem after_about {u : Usage σ} (h : u.resident.resident.get? key = some template)
    (events : List (Event σ)) :
    (u.after source events).recorded.about key = u.recorded.about key := by
  induction events generalizing u with
  | nil => rfl
  | cons e events ih =>
    have hnext := (step_extends source u e).resident key template h
    exact (ih hnext).trans (step_about source h e)

theorem resident_of_populates {source : TemplateSource (StateM σ)} {u : Usage σ} {e : Event σ}
    (h : u.Populates source e key template) :
    (u.step source e).resident.resident.get? key =
      some ((u.resident.resident.get? key).getD template) := by
  cases h with
  | fetch hok =>
    have hall := Recorded.allows_true (σ := σ)
    obtain ⟨hextends, -, hfound⟩ := TemplateSource.fetch_extends source (hall _)
      (hall _) (hall _) u.resident u.recorded (.refl _) trivial trivial
    have hafter := hfound template hok
    cases hr : u.resident.resident.get? key with
    | none => exact hafter
    | some x => exact hextends.resident key x hr
  | preload hfirst hok hset hkey =>
    rename_i templates found
    have hrun := source.recorded.runFrom_preload u.resident u.recorded
    rw [hfirst, if_neg Bool.false_ne_true] at hrun
    rw [call, hrun] at hok
    rw [step, call, hrun]
    rcases hasked : (source.recorded.throughCache Json.Codec.texts preloadKey
      (Table.ofList <$> source.recorded.store.findPreloaded)).runFrom u.resident u.recorded
      with ⟨⟨e⟩ | ⟨loaded⟩, t, r⟩
    · rw [hasked] at hok
      cases hok
    · have hloaded := TemplateSource.eq_of_offers hset.recorded hasked
      have ht : t = u.resident := by
        have hsame := TemplateSource.throughCache_resident source.recorded Json.Codec.texts
          preloadKey (Table.ofList <$> source.recorded.store.findPreloaded) u.resident u.recorded
        rw [hasked] at hsame
        exact hsame
      subst hloaded ht
      dsimp only
      rw [TemplateCache.get?_rememberAll, hkey]
      cases u.resident.resident.get? key <;> rfl

end Usage

/-- The first template of a key stays. Once a look-up of a key has succeeded, or a preload with the
key in its set, every later look-up returns the template that came first, asks nothing and changes
nothing, and no call asks about the key again; once a preload has succeeded, every later one succeeds
without a question; and the number of resident keys never falls. All this holds whatever store and
external cache do. -/
theorem first_template_stays {σ : Type} (source : TemplateSource (StateM σ)) (u : Usage σ)
    (events : List (Usage.Event σ)) :
    (∀ e key template, u.Populates source e key template →
      let later := (u.step source e).after source events
      later.call (source.recorded.fetch key) =
        (.ok ((u.resident.resident.get? key).getD template), later) ∧
      later.recorded.about key = (u.step source e).recorded.about key) ∧
    ((u.call source.recorded.preload).1 = .ok () →
      let later := (u.step source .preload).after source events
      later.call source.recorded.preload = (.ok (), later)) ∧
    u.resident.size ≤ (u.after source events).resident.size := by
  refine ⟨fun e key template h => ?_, fun hok => ?_, (u.after_extends source events).size⟩
  · have hresident := Usage.resident_of_populates h
    have hlater := (Usage.after_extends source (u.step source e) events).resident key _ hresident
    exact ⟨Usage.call_fetch_of_resident source hlater, Usage.after_about source hresident events⟩
  · have hall := Recorded.allows_true (σ := σ)
    have hdone := (TemplateSource.preload_extends source (hall _) (hall _) (hall _)
      u.resident u.recorded (.refl _) trivial trivial).2.2 () hok
    exact Usage.call_preload_of_preloaded source
      ((Usage.after_extends source (u.step source .preload) events).preloaded hdone)

def delivery : TemplateSource (StateM Bool) where
  store :=
    { find := fun key => ExceptT.mk do
        return .ok (if (← get) ∧ key = "tea".toList then some "Tea".toList else none)
      findPreloaded := ExceptT.mk do
        if ← get then return .ok [("tea".toList, "Tea".toList)]
        else return .error { kind := .unavailable } }
  cache := .never

def beforeDelivery : Usage Bool where
  resident := { resident := .empty }
  recorded := { state := false }

def atDelivery : Usage Bool :=
  beforeDelivery.after delivery [.fetch "tea".toList, .preload, .change fun _ => true]

def afterDelivery : Usage Bool := atDelivery.after delivery [.preload, .fetch "milk".toList]

theorem first_template_stays_missed :
    beforeDelivery.Populates delivery (.fetch "tea".toList) "tea".toList none ∧
      (atDelivery.call delivery.recorded.preload).1 = .ok () ∧
      afterDelivery.call (delivery.recorded.fetch "tea".toList) = (.ok none, afterDelivery) ∧
      afterDelivery.recorded.about "tea".toList =
        [.get (lookupKey "tea".toList), .find "tea".toList, .set (lookupKey "tea".toList)] ∧
      afterDelivery.call delivery.recorded.preload = (.ok (), afterDelivery) := by
  have hmissed : beforeDelivery.Populates delivery (.fetch "tea".toList) "tea".toList none :=
    .fetch rfl
  have hloaded : (atDelivery.call delivery.recorded.preload).1 = .ok () := rfl
  obtain ⟨htea, -, -⟩ := first_template_stays delivery beforeDelivery
    [.preload, .change fun _ => true, .preload, .fetch "milk".toList]
  obtain ⟨-, hpreload, -⟩ := first_template_stays delivery atDelivery [.fetch "milk".toList]
  obtain ⟨hanswer, hasked⟩ := htea _ _ _ hmissed
  exact ⟨hmissed, hloaded, hanswer, hasked.trans (by decide +kernel), hpreload hloaded⟩

end ContentWeave
