import ContentWeave.Proofs.Json.RoundTrip
import ContentWeave.Proofs.Session.Ledger

/-!
# Template caches are current after an invalidation

Readers look templates up over one cache whose entries under the keys of chunks only they write. Once
the tag of these entries has been invalidated, whatever a reader stores there has been read from its
store since, also if the reader has old templates resident: these it keeps to itself. So a reader that
begins after the invalidation has only templates that have been read since.
-/

namespace ContentWeave

open TemplateSource (preloadKey lookupKey)

section Yielding

variable {σ ε α : Type}

/-- From a state with `good`, `x` leads to one with `good`, and what it returns is `read` there. -/
def Yields (good : σ → Prop) (x : ExceptT ε (StateM σ) α) (read : σ → α → Prop) : Prop :=
  ∀ w, good w → good (runOn x w).2 ∧ ∀ a, (runOn x w).1 = .ok a → read (runOn x w).2 a

def Compile.Yields (good : σ → Prop) (x : Compile (StateM σ) α) (read : σ → α → Prop) : Prop :=
  ∀ t w, good w → (x.runFrom t w).2.1 = t ∧ good (x.runFrom t w).2.2 ∧
    ∀ a, (x.runFrom t w).1 = .ok a → read (x.runFrom t w).2.2 a

variable {s : TemplateSource (StateM σ)} {codec : Json.Codec α} {cacheKey : Text}
variable {ask : ExceptT StorageError (StateM σ) α} {good : σ → Prop} {read : σ → α → Prop}

/-- What is got through a cache is `read` in the state that is left, if what the cache answers and
what the store says are. -/
theorem TemplateSource.throughCache_yields
    (hget : Yields good (s.cache.get cacheKey) fun w found =>
      ∀ value a, found = some value → codec.decode? value = some a → read w a)
    (hask : Yields good ask read)
    (hset : ∀ a, Keeps (fun w => good w ∧ read w a)
      (s.cache.setAs codec cacheKey a s.ttl dependency) fun _ => True) :
    Compile.Yields good (s.throughCache codec cacheKey ask) read := by
  intro t w hw
  refine ⟨throughCache_resident .., ?_⟩
  obtain ⟨hgood, hanswer⟩ := hget w hw
  rw [runFrom_throughCache, Cache.runOn_getAs]
  rcases hrun : runOn (s.cache.get cacheKey) w with ⟨e | found, w₁⟩
  · rw [hrun] at hgood
    exact ⟨hgood, fun a ha => by cases ha⟩
  · rw [hrun] at hgood hanswer
    cases hdecoded : found.bind codec.decode? with
    | some a =>
      obtain ⟨value, rfl, hdecode⟩ := Option.bind_eq_some_iff.1 hdecoded
      simp only [Except.map, hdecoded]
      refine ⟨hgood, fun b hb => ?_⟩
      cases hb
      exact hanswer _ rfl value a rfl hdecode
    | none =>
      simp only [Except.map, hdecoded]
      obtain ⟨hasked, hsaid⟩ := hask w₁ hgood
      rcases hrunAsk : runOn ask w₁ with ⟨e | a, w₂⟩
      · rw [hrunAsk] at hasked
        exact ⟨hasked, fun a ha => by cases ha⟩
      · rw [hrunAsk] at hasked hsaid
        obtain ⟨⟨hstored, hread⟩, -⟩ := hset a w₂ ⟨hasked, hsaid a rfl⟩
        dsimp only
        rcases hrunSet : runOn (s.cache.setAs codec cacheKey a s.ttl dependency) w₂ with
          ⟨e | _, w₃⟩
        · rw [hrunSet] at hstored
          exact ⟨hstored, fun a ha => by cases ha⟩
        · rw [hrunSet] at hstored hread
          refine ⟨hstored, fun b hb => ?_⟩
          cases hb
          exact hread

end Yielding

namespace Note

section Kinds

variable (key j value : Text)

theorem stored_notMem_answers (r : Except CacheError (Option Text)) :
    .stored j value ∉ answers key r := by
  rcases r with e | _ | text <;> simp [answers]

theorem stored_notMem_finds (r : Except StorageError (Option Text)) :
    .stored j value ∉ finds key r := by
  cases r <;> simp [finds]

theorem stored_notMem_lists (r : Except StorageError (List (Text × Text))) :
    .stored j value ∉ lists r := by
  cases r <;> simp [lists]

end Kinds

def Listed (notes : List Note) (table : Table Text Text) : Prop :=
  ∃ templates, .listed templates ∈ notes ∧
    ∀ key, table.get? key = (Table.ofList templates).get? key

def Read (notes : List Note) (key : Text) (template : Option Text) : Prop :=
  .found key template ∈ notes ∨
    ∃ templates text, .listed templates ∈ notes ∧
      (Table.ofList templates).get? key = some text ∧ template = some text

variable {notes more : List Note} {key : Text} {template : Option Text} {table : Table Text Text}

theorem Listed.append (h : Listed notes table) (more : List Note) : Listed (notes ++ more) table := by
  obtain ⟨templates, hmem, hsame⟩ := h
  exact ⟨templates, List.mem_append_left _ hmem, hsame⟩

theorem Read.append (h : Read notes key template) (more : List Note) :
    Read (notes ++ more) key template := by
  rcases h with hfound | ⟨templates, text, hmem, hrest⟩
  · exact .inl (List.mem_append_left _ hfound)
  · exact .inr ⟨templates, text, List.mem_append_left _ hmem, hrest⟩

theorem Listed.read {text : Text} (h : Listed notes table) (htext : table.get? key = some text) :
    Read notes key (some text) := by
  obtain ⟨templates, hmem, hsame⟩ := h
  exact .inr ⟨templates, text, hmem, hsame key ▸ htext, rfl⟩

/-- What has been stored under the key of a chunk, a store has said. -/
structure Backed (notes : List Note) : Prop where
  lookup : ∀ key value, .stored (lookupKey key) value ∈ notes →
    ∃ template, .found key template ∈ notes ∧ value = Json.Codec.optionalText.encode template
  preload : ∀ value, .stored preloadKey value ∈ notes →
    ∃ table, Listed notes table ∧ value = Json.Codec.texts.encode table

namespace Backed

variable (h : Backed notes)

include h

theorem append
    (hlookup : ∀ key value, .stored (lookupKey key) value ∈ more →
      ∃ template, .found key template ∈ notes ∧ value = Json.Codec.optionalText.encode template)
    (hpreload : ∀ value, .stored preloadKey value ∈ more →
      ∃ table, Listed notes table ∧ value = Json.Codec.texts.encode table) :
    Backed (notes ++ more) where
  lookup key value hmem := by
    obtain ⟨template, hfound, hvalue⟩ :=
      (List.mem_append.1 hmem).elim (h.lookup key value) (hlookup key value)
    exact ⟨template, List.mem_append_left _ hfound, hvalue⟩
  preload value hmem := by
    obtain ⟨table, hlisted, hvalue⟩ :=
      (List.mem_append.1 hmem).elim (h.preload value) (hpreload value)
    exact ⟨table, hlisted.append more, hvalue⟩

theorem append_of_apart
    (hmore : ∀ key value, .stored key value ∈ more → ¬ "chunks:".toList <+: key) :
    Backed (notes ++ more) :=
  h.append
    (fun key value hmem =>
      absurd (TemplateSource.chunks_prefix_lookupKey key) (hmore _ value hmem))
    (fun value hmem => absurd TemplateSource.chunks_prefix_preloadKey (hmore _ value hmem))

theorem append_lookup (hfound : .found key template ∈ notes) :
    Backed (notes ++ [.stored (lookupKey key) (Json.Codec.optionalText.encode template)]) := by
  refine h.append (fun j value hmem => ?_) (fun value hmem => ?_)
  · obtain ⟨hkey, rfl⟩ := Note.stored.inj (List.mem_singleton.1 hmem)
    obtain rfl := TemplateSource.lookupKey_injective hkey
    exact ⟨template, hfound, rfl⟩
  · obtain ⟨hkey, -⟩ := Note.stored.inj (List.mem_singleton.1 hmem)
    exact absurd hkey.symm (TemplateSource.lookupKey_ne_preloadKey key)

theorem append_preload (hlisted : Listed notes table) :
    Backed (notes ++ [.stored preloadKey (Json.Codec.texts.encode table)]) := by
  refine h.append (fun j value hmem => ?_) (fun value hmem => ?_)
  · obtain ⟨hkey, -⟩ := Note.stored.inj (List.mem_singleton.1 hmem)
    exact absurd hkey (TemplateSource.lookupKey_ne_preloadKey j)
  · obtain ⟨-, rfl⟩ := Note.stored.inj (List.mem_singleton.1 hmem)
    exact ⟨table, hlisted, rfl⟩

end Backed
end Note

namespace Act

def chunkKeys (acts : List Act) : Set Text :=
  { key | key ∈ keysOf acts ∧ "chunks:".toList <+: key }

/-- Readers only look templates up, and others store nothing under the keys of chunks. -/
def LeavesChunks : Act → Prop
  | client (.compile _ _ _ _) => False
  | leave key _ _ _ => ¬ "chunks:".toList <+: key
  | _ => True

def who? : Act → Option ℕ
  | client (.compile c _ _ _) => some c.who
  | client (.fetch c _) => some c.who
  | client (.preload c) => some c.who
  | _ => none

variable {a : Act} {key : Text} {dependency : Dependency}

theorem LeavesChunks.mem_tags (h : a.LeavesChunks) (hset : a.Sets key dependency)
    (hkey : "chunks:".toList <+: key) : TemplateSource.tag ∈ dependency.tags := by
  match a with
  | client (.fetch _ _) =>
    obtain ⟨-, rfl⟩ := hset
    exact List.mem_singleton_self _
  | client (.preload _) =>
    obtain ⟨-, rfl⟩ := hset
    exact List.mem_singleton_self _
  | leave _ _ _ _ =>
    obtain ⟨rfl, -⟩ := hset
    exact absurd hkey h

end Act

/-- Since the tag of chunks has been invalidated: entries under the keys of chunks are backed by a
store or outdated, and fresh readers have no templates but those that have been read since. -/
structure Renewal (backend : Backend) (room : ℕ) (guarded : Set Text) (limit : ℕ) (fresh : Set ℕ)
    (residents : ℕ → TemplateCache) (notes : List Note) (w : World) : Prop where
  since : Since backend room guarded TemplateSource.tag limit notes w
  backed : Note.Backed notes
  known : ∀ who ∈ fresh, (residents who).All (Note.Read notes)

namespace Renewal

variable {ε α : Type} {backend : Backend} {room limit : ℕ} {keys guarded : Set Text}
variable {fresh : Set ℕ} {residents : ℕ → TemplateCache} {old notes : List Note} {w w' : World}
variable {key cacheKey : Text}

theorem step {room' : ℕ} {more : List Note}
    (h : Renewal backend room guarded limit fresh residents notes w)
    (hsince : Since backend room' guarded TemplateSource.tag limit (notes ++ more) w')
    (hbacked : Note.Backed (notes ++ more)) :
    Renewal backend room' guarded limit fresh residents (notes ++ more) w' where
  since := hsince
  backed := hbacked
  known who hwho j template hj := (h.known who hwho j template hj).append more

theorem get (h : Renewal backend room guarded limit fresh residents notes w) (cacheKey : Text) :
    Renewal backend room guarded limit fresh residents
      (notes ++ Note.answers cacheKey (runOn (backend.steady.get cacheKey) w).1)
      (runOn (backend.steady.get cacheKey) w).2 :=
  h.step (h.since.get cacheKey) (h.backed.append_of_apart fun _ _ hmem =>
    (Note.stored_notMem_answers _ _ _ _ hmem).elim)

theorem find (h : Renewal backend room guarded limit fresh residents notes w) (shelf : Shelf)
    (key : Text) : Renewal backend room guarded limit fresh residents
      (notes ++ Note.finds key (runOn (shelf.exposed.find key) w).1)
      (runOn (shelf.exposed.find key) w).2 :=
  h.step (h.since.find shelf key) (h.backed.append_of_apart fun _ _ hmem =>
    (Note.stored_notMem_finds _ _ _ _ hmem).elim)

theorem list (h : Renewal backend room guarded limit fresh residents notes w) (shelf : Shelf) :
    Renewal backend room guarded limit fresh residents
      (notes ++ Note.lists (runOn shelf.exposed.findPreloaded w).1)
      (runOn shelf.exposed.findPreloaded w).2 :=
  h.step (h.since.list shelf) (h.backed.append_of_apart fun _ _ hmem =>
    (Note.stored_notMem_lists _ _ _ hmem).elim)

theorem stored_since_of_get (h : Renewal backend room guarded limit fresh residents notes w)
    (hkey : key ∈ guarded) {value : Text}
    (hfound : (runOn (backend.steady.get key) w).1 = .ok (some value)) :
    .stored key value ∈ notes :=
  (Backend.Renewed.get key w h.since.renewed).2 _ hfound value rfl hkey

end Renewal

namespace Ledger

variable {ε α : Type} {old : List Note} {good good' : List Note → World → Prop} {l : Ledger}

/-- What is said in the notes that a ledger has taken since `old`. -/
def Says (old : List Note) (P : List Note → Prop) : Ledger → Prop := Grown old fun since _ => P since

theorem Grown.and (h : Grown old good l) (h' : Grown old good' l) :
    Grown old (fun since w => good since w ∧ good' since w) l := by
  obtain ⟨since, hnotes, hgood⟩ := h
  obtain ⟨since', hnotes', hgood'⟩ := h'
  obtain rfl := List.append_cancel_left (hnotes.symm.trans hnotes')
  exact ⟨since, hnotes, hgood, hgood'⟩

theorem Grown.yields {x : ExceptT ε (StateM World) α} {notes : Except ε α → List Note}
    {P : List Note → α → Prop} (h : ∀ since w, good since w →
      good (since ++ notes (runOn x w).1) (runOn x w).2)
    (hP : ∀ since w a, good since w → (runOn x w).1 = .ok a →
      P (since ++ notes (runOn x w).1) a) :
    Yields (Grown old good) (Ledger.noting notes x) fun l a => Says old (P · a) l := by
  rintro l ⟨since, hnotes, hgood⟩
  have happend : (runOn (Ledger.noting notes x) l).2.notes =
      old ++ (since ++ notes (runOn x l.world).1) := by
    rw [runOn_noting, hnotes, List.append_assoc]
  exact ⟨⟨_, happend, h since l.world hgood⟩, fun a ha => ⟨_, happend, hP since l.world a hgood ha⟩⟩

end Ledger

namespace Renewal

variable {α : Type} {backend : Backend} {room limit : ℕ} {keys guarded : Set Text} {fresh : Set ℕ}
variable {residents : ℕ → TemplateCache} {old : List Note} {client : Client}
variable {codec : Json.Codec α} {cacheKey : Text} {ask : ExceptT StorageError (StateM Ledger) α}

/-- Asking through the cache for what is stored under a guarded key: `P` says that a store has said
so. -/
theorem throughCache_yields {P : List Note → α → Prop} (hkeys : backend.Separates keys)
    (hguarded : guarded ⊆ keys) (hkey : cacheKey ∈ guarded)
    (hcached : ∀ notes value a, Note.Backed notes → .stored cacheKey value ∈ notes →
      codec.decode? value = some a → P notes a)
    (hstored : ∀ notes a, Note.Backed notes → P notes a →
      Note.Backed (notes ++ [.stored cacheKey (codec.encode a)]))
    (hmono : ∀ notes more a, P notes a → P (notes ++ more) a)
    (hask : Yields (Ledger.Grown old (Renewal backend room guarded limit fresh residents)) ask
      fun l a => Ledger.Says old (P · a) l) :
    Compile.Yields (Ledger.Grown old (Renewal backend room guarded limit fresh residents))
      ((client.noted backend).templates.throughCache codec cacheKey ask)
      fun l a => Ledger.Says old (P · a) l := by
  refine TemplateSource.throughCache_yields ?_ hask fun a => ?_
  · have hget : Yields (Ledger.Grown old (Renewal backend room guarded limit fresh residents))
        (backend.steady.noted.get cacheKey) fun l found => Ledger.Says old (fun since =>
          ∀ value a, found = some value → codec.decode? value = some a → P since a) l := by
      refine Ledger.Grown.yields (fun since w h => h.get cacheKey) ?_
      rintro since w found h hfound value a rfl hdecode
      exact hmono _ _ _ (hcached since value a h.backed (h.stored_since_of_get hkey hfound) hdecode)
    intro l hl
    obtain ⟨hnext, hsays⟩ := hget l hl
    refine ⟨hnext, fun found hfound value a hvalue hdecode => ?_⟩
    obtain ⟨since, hnotes, hP⟩ := hsays found hfound
    exact ⟨since, hnotes, hP value a hvalue hdecode⟩
  · rintro l ⟨hl, hsays⟩
    have hset : Keeps (Ledger.Grown old fun since w =>
        Renewal backend room guarded limit fresh residents since w ∧ P since a)
        (backend.steady.noted.set cacheKey (codec.encode a) client.lookupTtl
          TemplateSource.dependency) fun _ => True :=
      Ledger.Grown.noting fun since w h =>
        ⟨h.1.step (h.1.since.set hkeys hguarded (hguarded hkey) _ _ _)
          (hstored since a h.1.backed h.2), hmono _ _ _ h.2⟩
    obtain ⟨⟨since, hnotes, h, hP⟩, -⟩ := hset l (hl.and hsays)
    exact ⟨⟨⟨since, hnotes, h⟩, since, hnotes, hP⟩, fun _ _ => trivial⟩

theorem lookup_yields {key : Text} (hkeys : backend.Separates keys) (hguarded : guarded ⊆ keys)
    (hkey : lookupKey key ∈ guarded) :
    Compile.Yields (Ledger.Grown old (Renewal backend room guarded limit fresh residents))
      ((client.noted backend).templates.throughCache Json.Codec.optionalText (lookupKey key)
        ((client.noted backend).templates.store.find key))
      fun l template => Ledger.Says old (.found key template ∈ ·) l := by
  refine throughCache_yields hkeys hguarded hkey ?_ ?_ ?_ ?_
  · intro notes value template hbacked hstored hdecode
    obtain ⟨said, hfound, rfl⟩ := hbacked.lookup key value hstored
    rw [Json.Codec.decode?_encode_optionalText] at hdecode
    cases hdecode
    exact hfound
  · exact fun notes template hbacked hfound => hbacked.append_lookup hfound
  · exact fun notes more template hfound => List.mem_append_left _ hfound
  · refine Ledger.Grown.yields (fun since w h => h.find client.shelf key) ?_
    intro since w template h hfound
    rw [hfound]
    exact List.mem_append_right _ (List.mem_singleton_self _)

theorem preload_yields (hkeys : backend.Separates keys) (hguarded : guarded ⊆ keys)
    (hkey : preloadKey ∈ guarded) :
    Compile.Yields (Ledger.Grown old (Renewal backend room guarded limit fresh residents))
      ((client.noted backend).templates.throughCache Json.Codec.texts preloadKey
        (Table.ofList <$> (client.noted backend).templates.store.findPreloaded))
      fun l table => Ledger.Says old (Note.Listed · table) l := by
  refine throughCache_yields hkeys hguarded hkey ?_ ?_ ?_ ?_
  · intro notes value table hbacked hstored hdecode
    obtain ⟨listed, ⟨templates, hmem, hsame⟩, rfl⟩ := hbacked.preload value hstored
    refine ⟨templates, hmem, fun key => ?_⟩
    rw [Json.Codec.get?_of_decode?_encode_texts hdecode, hsame]
  · exact fun notes table hbacked hlisted => hbacked.append_preload hlisted
  · exact fun notes more table hlisted => hlisted.append more
  · have hlist : Yields (Ledger.Grown old (Renewal backend room guarded limit fresh residents))
        client.shelf.noted.findPreloaded
        fun l templates => Ledger.Says old (.listed templates ∈ ·) l := by
      refine Ledger.Grown.yields (fun since w h => h.list client.shelf) ?_
      intro since w templates h hlisted
      rw [hlisted]
      exact List.mem_append_right _ (List.mem_singleton_self _)
    intro l hl
    obtain ⟨hnext, hsays⟩ := hlist l hl
    rw [runOn_map]
    refine ⟨hnext, fun table htable => ?_⟩
    obtain ⟨templates, htemplates, rfl⟩ : ∃ templates,
        (runOn (client.noted backend).templates.store.findPreloaded l).1 = .ok templates ∧
          Table.ofList templates = table := by
      cases hr : (runOn (client.noted backend).templates.store.findPreloaded l).1 with
      | error e =>
        rw [hr] at htable
        cases htable
      | ok templates =>
        rw [hr] at htable
        exact ⟨templates, rfl, Except.ok.inj htable⟩
    obtain ⟨since, hnotes, hmem⟩ := hsays templates htemplates
    exact ⟨since, hnotes, templates, hmem, fun _ => rfl⟩

theorem update {notes : List Note} {w : World} {who : ℕ} {t : TemplateCache}
    (h : Renewal backend room guarded limit fresh residents notes w)
    (ht : who ∈ fresh → t.All (Note.Read notes)) :
    Renewal backend room guarded limit fresh (Function.update residents who t) notes w where
  since := h.since
  backed := h.backed
  known other hother := by
    by_cases heq : other = who
    · subst heq
      rw [Function.update_self]
      exact ht hother
    · rw [Function.update_of_ne heq]
      exact h.known other hother

variable {l : Ledger}

theorem fetch {key : Text} (hkeys : backend.Separates keys) (hguarded : guarded ⊆ keys)
    (hkey : lookupKey key ∈ guarded)
    (hl : Ledger.Grown old (Renewal backend room guarded limit fresh residents) l) :
    let outcome := ((client.noted backend).templates.fetch key).runFrom (residents client.who) l
    Ledger.Grown old (Renewal backend room guarded limit fresh
        (Function.update residents client.who outcome.2.1)) outcome.2.2 ∧
      (client.who ∈ fresh → ∀ template, outcome.1 = .ok template →
        Ledger.Says old (Note.Read · key template) outcome.2.2) := by
  dsimp only
  rw [TemplateSource.runFrom_fetch]
  cases hresident : (residents client.who).resident.get? key with
  | some template =>
    dsimp only
    rw [Function.update_eq_self]
    refine ⟨hl, fun hfresh found hfound => ?_⟩
    cases hfound
    obtain ⟨since, hnotes, h⟩ := hl
    exact ⟨since, hnotes, h.known _ hfresh key template hresident⟩
  | none =>
    obtain ⟨ht, hgood, hread⟩ := lookup_yields hkeys hguarded hkey (residents client.who) l hl
    rcases hrun : ((client.noted backend).templates.throughCache Json.Codec.optionalText
      (lookupKey key) ((client.noted backend).templates.store.find key)).runFrom
        (residents client.who) l with ⟨e | template, t, l'⟩
    · rw [hrun] at ht hgood
      obtain rfl : t = residents client.who := ht
      dsimp only
      rw [Function.update_eq_self]
      exact ⟨hgood, fun _ template htemplate => by cases htemplate⟩
    · rw [hrun] at ht hgood hread
      obtain rfl : t = residents client.who := ht
      obtain ⟨since, hnotes, h, hfound⟩ := hgood.and (hread template rfl)
      refine ⟨⟨since, hnotes, h.update fun hfresh => ?_⟩, fun _ found hsame => ?_⟩
      · exact (h.known _ hfresh).remember (.inl hfound)
      · cases hsame
        exact ⟨since, hnotes, .inl hfound⟩

theorem preload (hkeys : backend.Separates keys) (hguarded : guarded ⊆ keys)
    (hkey : preloadKey ∈ guarded)
    (hl : Ledger.Grown old (Renewal backend room guarded limit fresh residents) l) :
    let outcome := (client.noted backend).templates.preload.runFrom (residents client.who) l
    Ledger.Grown old (Renewal backend room guarded limit fresh
      (Function.update residents client.who outcome.2.1)) outcome.2.2 := by
  dsimp only
  rw [TemplateSource.runFrom_preload]
  by_cases hloaded : (residents client.who).preloaded
  · rw [if_pos hloaded, Function.update_eq_self]
    exact hl
  · rw [if_neg hloaded]
    obtain ⟨ht, hgood, hread⟩ := preload_yields hkeys hguarded hkey (residents client.who) l hl
    rcases hrun : ((client.noted backend).templates.throughCache Json.Codec.texts preloadKey
      (Table.ofList <$> (client.noted backend).templates.store.findPreloaded)).runFrom
        (residents client.who) l with ⟨e | table, t, l'⟩
    · rw [hrun] at ht hgood
      obtain rfl : t = residents client.who := ht
      dsimp only
      rw [Function.update_eq_self]
      exact hgood
    · rw [hrun] at ht hgood hread
      obtain rfl : t = residents client.who := ht
      obtain ⟨since, hnotes, h, hlisted⟩ := hgood.and (hread table rfl)
      refine ⟨since, hnotes, h.update fun hfresh => ?_⟩
      exact (h.known _ hfresh).rememberAll fun key text htext => hlisted.read htext

end Renewal

namespace Journal

variable {backend : Backend} {room limit : ℕ} {keys guarded : Set Text} {fresh : Set ℕ}
variable {old : List Note} {j : Journal} {acts : List Act}
variable (hkeys : backend.Separates keys) (hguarded : guarded ⊆ keys)
variable (hchunks : ∀ key ∈ keys, "chunks:".toList <+: key → key ∈ guarded)

include hkeys hguarded hchunks

theorem step_renewal {a : Act} (hleaves : a.LeavesChunks) (hin : ∀ key ∈ a.keys, key ∈ keys)
    (h : Ledger.Grown old (Renewal backend (room + a.raised) guarded limit fresh j.residents)
      j.ledger) :
    Ledger.Grown old (Renewal backend room guarded limit fresh (j.step backend a).residents)
      (j.step backend a).ledger := by
  match a with
  | .client (.fetch client key) =>
    have hkey := hchunks _ (hin _ (List.mem_singleton_self _))
      (TemplateSource.chunks_prefix_lookupKey key)
    exact (Renewal.fetch hkeys hguarded hkey h).1
  | .client (.preload client) =>
    have hkey := hchunks _ (hin _ (List.mem_singleton_self _))
      TemplateSource.chunks_prefix_preloadKey
    exact Renewal.preload hkeys hguarded hkey h
  | .client (.invalidate tags) =>
    obtain ⟨since, hnotes, hrenewal⟩ := h
    refine ⟨since ++ [], ?_, hrenewal.step hrenewal.since.invalidate ?_⟩
    · rw [List.append_nil, ← hnotes]
      exact List.append_nil j.ledger.notes
    · rw [List.append_nil]
      exact hrenewal.backed
  | .peek key => exact (Ledger.Grown.noting (fun since w hw => hw.get key) _ h).1
  | .leave key value ttl dependency =>
    have hkey := hin _ (List.mem_singleton_self _)
    have hset : Keeps (Ledger.Grown old (Renewal backend room guarded limit fresh j.residents))
        (backend.steady.noted.set key value ttl dependency) fun _ => True := by
      refine Ledger.Grown.noting fun since w hw => ?_
      refine hw.step (hw.since.set hkeys hguarded hkey value ttl dependency) ?_
      refine hw.backed.append_of_apart fun other text hmem => ?_
      obtain ⟨rfl, -⟩ := Note.stored.inj (List.mem_singleton.1 hmem)
      exact hleaves
    exact (hset _ h).1

theorem after_renewal (hleaves : ∀ a ∈ acts, a.LeavesChunks)
    (hin : ∀ a ∈ acts, ∀ key ∈ a.keys, key ∈ keys)
    (h : Ledger.Grown old
      (Renewal backend (room + Act.raisedBy acts) guarded limit fresh j.residents) j.ledger) :
    Ledger.Grown old (Renewal backend room guarded limit fresh (j.after backend acts).residents)
      (j.after backend acts).ledger :=
  after_of_step (fun room j =>
      Ledger.Grown old (Renewal backend room guarded limit fresh j.residents) j.ledger)
    (fun a ha _ _ hj => step_renewal hkeys hguarded hchunks (hleaves a ha) (hin a ha) hj) h

omit hkeys hguarded hchunks

theorem residents_after {who : ℕ} (hwho : ∀ a ∈ acts, a.who? ≠ some who) :
    (j.after backend acts).residents who = j.residents who := by
  induction acts generalizing j with
  | nil => rfl
  | cons a acts ih =>
    refine (ih fun b hb => hwho b (List.mem_cons_of_mem _ hb)).trans ?_
    have ha := hwho a List.mem_cons_self
    match a with
    | .client (.compile client _ _ _) =>
      exact Function.update_of_ne (fun heq => ha (congrArg some heq.symm)) _ _
    | .client (.fetch client _) =>
      exact Function.update_of_ne (fun heq => ha (congrArg some heq.symm)) _ _
    | .client (.preload client) =>
      exact Function.update_of_ne (fun heq => ha (congrArg some heq.symm)) _ _
    | .client (.invalidate _) => rfl
    | .peek _ => rfl
    | .leave _ _ _ _ => rfl

theorem renewal_begins {w : World} {tags : List Text} {who : ℕ}
    (hnew : backend.IsNew (Act.raisedBy acts + tags.length + room) w)
    (hkeys : backend.Separates keys) (hguarded : guarded ⊆ keys)
    (hchunks : ∀ key ∈ guarded, "chunks:".toList <+: key)
    (hleaves : ∀ a ∈ acts, a.LeavesChunks) (hin : ∀ a ∈ acts, ∀ key ∈ a.keys, key ∈ keys)
    (htag : TemplateSource.tag ∈ tags)
    (hdone : (((start w).after backend acts).invalidation backend tags).1 = .ok ())
    (hfresh : ∀ a ∈ acts, a.who? ≠ some who) :
    let invalid := ((start w).after backend acts).step backend (.client (.invalidate tags))
    ∃ limit, Ledger.Grown invalid.ledger.notes
      (Renewal backend room guarded limit {who} invalid.residents) invalid.ledger := by
  intro invalid
  have hsets : ∀ a ∈ acts, ∀ key dependency, a.Sets key dependency → key ∈ guarded →
      TemplateSource.tag ∈ dependency.tags :=
    fun a ha key dependency hset hkey => (hleaves a ha).mem_tags hset (hchunks key hkey)
  have hstart : backend.Dated (room + tags.length + Act.raisedBy acts) guarded TemplateSource.tag
      (start w).ledger.world := .of_isNew (hnew.mono (by omega))
  have hrenewed := (after_dated hkeys hguarded hin hsets hstart).renewed htag hdone
  refine ⟨_, [], (List.append_nil _).symm, ⟨hrenewed _, ?_⟩, ⟨by simp, by simp⟩, ?_⟩
  · intro front key value rest heq
    cases front <;> cases heq
  · rintro other rfl
    have hnothing : invalid.residents other = {} := residents_after hfresh
    rw [hnothing]
    exact .empty _

end Journal

/-- Whatever readers with old templates do, a reader that begins after the tag of chunks has been
invalidated gets only what a store has said since. -/
theorem fetched_since_invalidation {backend : Backend} {w : World} {before later : List Act}
    {tags : List Text} {client : Client} {key : Text}
    (hnew : backend.IsNew (Act.raisedBy before + tags.length + Act.raisedBy later) w)
    (hkeys : backend.Separates
      (Act.keysOf (before ++ later ++ [.client (.fetch client key)])))
    (hleaves : ∀ a ∈ before ++ later, a.LeavesChunks)
    (htag : TemplateSource.tag ∈ tags)
    (hdone : (((Journal.start w).after backend before).invalidation backend tags).1 = .ok ())
    (hfresh : ∀ a ∈ before, a.who? ≠ some client.who) :
    let invalid := ((Journal.start w).after backend before).step backend (.client (.invalidate tags))
    let outcome := (invalid.after backend later).run client
      ((client.noted backend).templates.fetch key)
    ∀ template, outcome.1 = .ok template →
      ∃ since, outcome.2.2.notes = invalid.ledger.notes ++ since ∧ Note.Read since key template := by
  intro invalid outcome template htemplate
  have hin : ∀ a ∈ before ++ later ++ [.client (.fetch client key)], ∀ k ∈ a.keys,
      k ∈ Act.keysOf (before ++ later ++ [.client (.fetch client key)]) :=
    fun a ha k hk => ⟨a, ha, hk⟩
  have hguarded : Act.chunkKeys (before ++ later ++ [.client (.fetch client key)]) ⊆
      Act.keysOf (before ++ later ++ [.client (.fetch client key)]) := fun k hk => hk.1
  obtain ⟨limit, hbegins⟩ := Journal.renewal_begins hnew hkeys hguarded (fun k hk => hk.2)
    (fun a ha => hleaves a (by simp [ha])) (fun a ha => hin a (by simp [ha])) htag hdone hfresh
  rw [← Nat.zero_add (Act.raisedBy later)] at hbegins
  have hafter := Journal.after_renewal hkeys hguarded (fun k hk hchunk => ⟨hk, hchunk⟩)
    (fun a ha => hleaves a (by simp [ha])) (fun a ha => hin a (by simp [ha])) hbegins
  have hlookup := hin (.client (.fetch client key)) (by simp) _ (List.mem_singleton_self _)
  exact (Renewal.fetch hkeys hguarded
    ⟨hlookup, TemplateSource.chunks_prefix_lookupKey key⟩ hafter).2 rfl template htemplate

def dairy (who : ℕ) (milk : Option Text) : Client where
  shelf := { find := fun key => .ok (if key = "milk".toList then milk else none)
             preloaded := .ok [] }
  who := who

def milkless : List Act := [.client (.fetch (dairy 0 none) "milk".toList)]

def restocked : List Act := [
  .client (.fetch (dairy 0 (some "Milk".toList)) "milk".toList),
  .client (.preload (dairy 0 (some "Milk".toList)))]

theorem fetched_since_invalidation_milk :
    let invalid := ((Journal.start {}).after .memory milkless).step .memory
      (.client (.invalidate ["chunks".toList]))
    let ask (who : ℕ) := (invalid.after .memory restocked).run (dairy who (some "Milk".toList))
      (((dairy who (some "Milk".toList)).noted .memory).templates.fetch "milk".toList)
    (ask 0).1 = .ok none ∧ (ask 1).1 = .ok (some "Milk".toList) ∧
      ∃ since, (ask 1).2.2.notes = invalid.ledger.notes ++ since ∧
        Note.Read since "milk".toList (some "Milk".toList) := by
  intro invalid ask
  have hleaves : ∀ a ∈ milkless ++ restocked, a.LeavesChunks := by
    simp [milkless, restocked, Act.LeavesChunks]
  have hdone : (((Journal.start {}).after .memory milkless).invalidation .memory
      ["chunks".toList]).1 = .ok () := by decide +kernel
  have hfresh : ∀ a ∈ milkless, a.who? ≠ some 1 := by
    simp [milkless, Act.who?, dairy]
  have hmilk : (ask 1).1 = .ok (some "Milk".toList) := by decide +kernel
  exact ⟨by decide +kernel, hmilk, fetched_since_invalidation (Backend.isNew_memory _ 0 []) trivial
    hleaves (List.mem_singleton_self _) hdone hfresh _ hmilk⟩

end ContentWeave
