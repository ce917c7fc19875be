import ContentWeave.Proofs.Session.Storing

/-!
# Where cached texts come from

Every text that a shared cache answers with was stored in the course of the session, for a purpose
with the same key in the cache. Purposes of two kinds, and results of two pairs of keys, can have one
key in the cache, since the keys of a result are only written one behind the other; what follows says
when, and what this does to directives that are no chunk calls.
-/

namespace ContentWeave

open TemplateSource (preloadKey lookupKey)

namespace Purpose

/-- Two purposes that a cache does not tell apart: results of directives with keys of different
length, or a result and something that concerns templates. -/
inductive Confused : Purpose → Purpose → Prop
  | results {key contentKey key' contentKey' : Text} (hne : contentKey ≠ contentKey')
      (h : key ++ contentKey = key' ++ contentKey') :
      Confused (result key contentKey) (result key' contentKey')
  | result_preload {key contentKey : Text} (h : key ++ contentKey = preloadKey) :
      Confused (result key contentKey) preload
  | preload_result {key contentKey : Text} (h : key ++ contentKey = preloadKey) :
      Confused preload (result key contentKey)
  | result_lookup {key contentKey key' : Text} (h : key ++ contentKey = lookupKey key') :
      Confused (result key contentKey) (lookup key')
  | lookup_result {key contentKey key' : Text} (h : key ++ contentKey = lookupKey key') :
      Confused (lookup key') (result key contentKey)

/-- Two purposes share their key in the cache if they are the same or confused, and only then. -/
theorem cacheKey_eq_iff (p q : Purpose) : p.cacheKey = q.cacheKey ↔ p = q ∨ Confused p q := by
  constructor
  · intro h
    cases p with
    | result key contentKey =>
      cases q with
      | result key' contentKey' =>
        by_cases hc : contentKey = contentKey'
        · subst hc
          have hk : key = key' := List.append_cancel_right h
          exact .inl (by rw [hk])
        · exact .inr (.results hc h)
      | preload => exact .inr (.result_preload h)
      | lookup key' => exact .inr (.result_lookup h)
    | preload =>
      cases q with
      | result key' contentKey' => exact .inr (.preload_result h.symm)
      | preload => exact .inl rfl
      | lookup key' => exact absurd h.symm (TemplateSource.lookupKey_ne_preloadKey key')
    | lookup key =>
      cases q with
      | result key' contentKey' => exact .inr (.lookup_result h.symm)
      | preload => exact absurd h (TemplateSource.lookupKey_ne_preloadKey key)
      | lookup key' =>
        have hk : key = key' := TemplateSource.lookupKey_injective h
        exact .inl (by rw [hk])
  · rintro (rfl | h)
    · rfl
    · cases h with
      | results hne h => exact h
      | result_preload h => exact h
      | preload_result h => exact h.symm
      | result_lookup h => exact h
      | lookup_result h => exact h.symm

end Purpose

/-- What a directive stands for that is no chunk call: the widget of its form, or nothing. -/
def Client.widget (client : Client) (d : Directive) : Text :=
  match d.kind, FormSpec.parse d.key with
  | .form, some spec => client.forms spec
  | _, _ => []

/-- A directive that is no chunk call is expanded to what the cache answers for it, and to its widget
if the cache answers nothing. -/
theorem expand_not_chunk (client : Client) (backend : Backend) {d : Directive}
    (hkind : d.kind ≠ .chunk) (contentKey : Text) (dependency : Dependency) (t : TemplateCache)
    (w : World) :
    (((client.compiler backend).expand d contentKey dependency).runFrom t w).1 =
      match (runOn (backend.cache.get (Compiler.renderKey d.key contentKey)) w).1 with
      | .ok (some text) => .ok text
      | .ok none => .ok (client.widget d)
      | .error e => .error (.cache e) := by
  have hcache : (client.compiler backend).cache = backend.cache := rfl
  rw [Compiler.runFrom_expand, hcache]
  rcases runOn (backend.cache.get (Compiler.renderKey d.key contentKey)) w with ⟨⟨e⟩ | ⟨_ | text⟩, w'⟩
  · rfl
  · cases hk : d.kind with
    | chunk => exact absurd hk hkind
    | unknown => simp [Client.widget, hk]
    | form =>
      cases hf : FormSpec.parse d.key <;>
        simp [Client.widget, hk, hf, Compiler.renderForm, Client.compiler]
  · rfl

/-- Within any call of any session that began with an empty cache, a directive that is no chunk call
is expanded to its widget exactly if the cache answers nothing for it, or the widget itself. Any
other text was stored under the key that the directive has in the cache, by an earlier event or by
an earlier directive of the call. -/
theorem widget_iff_get {backend : Backend} {w w' : World} {events : List Event} {client : Client}
    {content contentKey : Text} {dependency : Dependency} {before rest : List Directive}
    {d : Directive} {texts : List Text} {text : Text} {t : TemplateCache}
    (hempty : backend.IsEmpty w)
    (hnames : backend.Separates
      (keysOf (events ++ [.compile client content contentKey dependency])))
    (hsplit : Directive.scan content = before ++ d :: rest) (hkind : d.kind ≠ .chunk)
    (hreached : ((client.compiler backend).expandFirst contentKey dependency before).runFrom
      ((({ world := w } : Session).after backend events).residents client.who)
      (({ world := w } : Session).after backend events).world = (.ok texts, t, w'))
    (h : (((client.compiler backend).expand d contentKey dependency).runFrom t w').1 = .ok text) :
    (text = client.widget d ↔
      (runOn (backend.cache.get (Compiler.renderKey d.key contentKey)) w').1 = .ok none ∨
      (runOn (backend.cache.get (Compiler.renderKey d.key contentKey)) w').1 =
        .ok (some (client.widget d))) ∧
    (text ≠ client.widget d → ∃ p, p.cacheKey = Compiler.renderKey d.key contentKey ∧
      (({ world := w } : Session).StoredFor backend events p text ∨
        client.CompileStores backend contentKey dependency before
          ((({ world := w } : Session).after backend events).residents client.who)
          (({ world := w } : Session).after backend events).world p text)) := by
  set keys := keysOf (events ++ [.compile client content contentKey dependency]) with hkeys
  have hcall : ∀ key ∈ (Event.compile client content contentKey dependency).keys, key ∈ keys :=
    fun key hkey => mem_keysOf (by simp) hkey
  have hbefore : ∀ e ∈ before, e ∈ Directive.scan content := by
    intro e he
    simp [hsplit, he]
  have hd : d ∈ Directive.scan content := by simp [hsplit]
  have hearlier := after_gains hnames (s := { world := w }) fun key hkey =>
    keysOf_mono (List.subset_append_left events _) hkey
  have hfirst := expandFirst_gains client hnames dependency
    (hcall _ Event.preloadKey_mem_keys) (fun e he => hcall _ (Event.lookupKey_mem_keys (hbefore e he)))
    (fun e he => hcall _ (Event.renderKey_mem_keys (hbefore e he)))
    ((({ world := w } : Session).after backend events).residents client.who)
    (({ world := w } : Session).after backend events).world
  rw [hreached] at hfirst
  have hrender := hcall _ (Event.renderKey_mem_keys hd)
  -- the cache is asked before the kind of the directive is looked at
  rw [expand_not_chunk client backend hkind] at h
  rcases hget : (runOn (backend.cache.get (Compiler.renderKey d.key contentKey)) w').1
    with e | ⟨_ | found⟩
  · rw [hget] at h
    cases h
  · rw [hget] at h
    cases h
    exact ⟨by simp, fun hne => absurd rfl hne⟩
  · rw [hget] at h
    cases h
    refine ⟨by simp, fun _ => ?_⟩
    rcases hfirst _ hrender _ (backend.kept?_of_get hnames hrender hget) with hkept | ⟨p, hp, hkey⟩
    · rcases hearlier _ hrender _ hkept with hnothing | ⟨p, hp, hkey⟩
      · exact absurd ((hempty _).symm.trans hnothing) (Option.some_ne_none _).symm
      · exact ⟨p, hkey, .inl hp⟩
    · exact ⟨p, hkey, .inr hp⟩

def sevenClient : Client where
  shelf :=
    { find := fun key => .ok (if key = ['7'] then some "seven".toList else none)
      preloaded := .ok [] }
  forms := .html
  who := 0

def sevens : Text := "[[$7]][[%7]]".toList

def chunkSeven : Directive := ⟨"[[$7]]".toList, some '$', ['7']⟩

def formSeven : Directive := ⟨"[[%7]]".toList, some '%', ['7']⟩

theorem scan_sevens : Directive.scan sevens = [chunkSeven, formSeven] := by decide +kernel

theorem reached_sevens :
    ((sevenClient.compiler .memory).expandFirst [] {} [chunkSeven]).runFrom {} {} =
      (.ok ["seven".toList],
        (((sevenClient.compiler .memory).expandFirst [] {} [chunkSeven]).runFrom {} {}).2) :=
  Prod.ext (by decide +kernel) rfl

theorem form_sevens :
    (((sevenClient.compiler .memory).expand formSeven [] {}).runFrom
      (((sevenClient.compiler .memory).expandFirst [] {} [chunkSeven]).runFrom {} {}).2.1
      (((sevenClient.compiler .memory).expandFirst [] {} [chunkSeven]).runFrom {} {}).2.2).1 =
      .ok "seven".toList := by decide +kernel

/-- A form directive can show the text of a chunk. -/
theorem form_shows_chunk : ¬ ∀ (before rest : List Directive) (d : Directive) (texts : List Text)
    (text : Text) (t : TemplateCache) (w : World),
    Directive.scan sevens = before ++ d :: rest → d.kind ≠ .chunk →
    ((sevenClient.compiler .memory).expandFirst [] {} before).runFrom {} {} = (.ok texts, t, w) →
    (((sevenClient.compiler .memory).expand d [] {}).runFrom t w).1 = .ok text →
    text = sevenClient.widget d := by
  intro h
  have hsame := h [chunkSeven] [] formSeven _ _ _ _ scan_sevens (by decide) reached_sevens form_sevens
  have hne : "seven".toList ≠ sevenClient.widget formSeven := by decide +kernel
  exact hne hsame

theorem widget_iff_get_sevens :
    "seven".toList ≠ sevenClient.widget formSeven ∧
    ∃ p, p.cacheKey = Compiler.renderKey formSeven.key [] ∧
      (({} : Session).StoredFor .memory [] p "seven".toList ∨
        sevenClient.CompileStores .memory [] {} [chunkSeven] {} {} p "seven".toList) := by
  have hne : "seven".toList ≠ sevenClient.widget formSeven := by decide +kernel
  have hempty : Backend.memory.IsEmpty {} := fun _ => rfl
  have hstored := @widget_iff_get .memory {} _ [] sevenClient sevens [] {} [chunkSeven] [] formSeven
    _ _ _ hempty trivial scan_sevens (by decide) reached_sevens form_sevens
  exact ⟨hne, hstored.2 hne⟩

/-- Whatever has happened to a cache that was empty, what it answers when the text of a purpose is
looked up was stored in the course of the session for that purpose, or for one that is confused
with it. -/
theorem stored_of_get {backend : Backend} {w : World} {events : List Event} {q : Purpose}
    {value : Text} (hempty : backend.IsEmpty w)
    (hnames : backend.Separates (insert q.cacheKey (keysOf events)))
    (h : (runOn (backend.cache.get q.cacheKey)
      (({ world := w } : Session).after backend events).world).1 = .ok (some value)) :
    ∃ p, ({ world := w } : Session).StoredFor backend events p value ∧ (p = q ∨ p.Confused q) := by
  have hq : q.cacheKey ∈ insert q.cacheKey (keysOf events) := Set.mem_insert _ _
  have hgained := after_gains hnames (s := { world := w }) fun key hkey =>
    Set.mem_insert_of_mem q.cacheKey hkey
  rcases hgained _ hq value (backend.kept?_of_get hnames hq h) with hnothing | ⟨p, hp, hkey⟩
  · exact absurd ((hempty _).symm.trans hnothing) (Option.some_ne_none _).symm
  · exact ⟨p, hp, (p.cacheKey_eq_iff q).1 hkey⟩

def letterClient : Client where
  shelf := { find := fun key => .ok (some (key.map Char.toUpper)), preloaded := .ok [] }
  who := 0

def letters : List Event := [.compile letterClient "[[$a]]".toList "bc".toList {}]

theorem get_letters :
    (runOn (Backend.memory.cache.get (Purpose.result "ab".toList "c".toList).cacheKey)
      (({} : Session).after .memory letters).world).1 = .ok (some "A".toList) := by decide +kernel

/-- The result of one pair of keys can be answered for another. -/
theorem not_stored_for_purpose : ¬ ∀ (events : List Event) (q : Purpose) (value : Text),
    (runOn (Backend.memory.cache.get q.cacheKey) (({} : Session).after .memory events).world).1 =
      .ok (some value) → ({} : Session).StoredFor .memory events q value := by
  intro h
  obtain ⟨earlier, e, later, hsplit, hstores⟩ := h letters _ _ get_letters
  have he : e ∈ letters := by simp [hsplit]
  rw [letters, List.mem_singleton] at he
  subst he
  have hkey : "c".toList = "bc".toList := hstores.contentKey_eq
  exact absurd hkey (by decide)

theorem stored_of_get_letters :
    ∃ p, ({} : Session).StoredFor .memory letters p "A".toList ∧
      (p = .result "ab".toList "c".toList ∨ p.Confused (.result "ab".toList "c".toList)) := by
  have hempty : Backend.memory.IsEmpty {} := fun _ => rfl
  have hnames : Backend.memory.Separates
      (insert (Purpose.result "ab".toList "c".toList).cacheKey (keysOf letters)) := trivial
  exact stored_of_get hempty hnames get_letters

end ContentWeave
