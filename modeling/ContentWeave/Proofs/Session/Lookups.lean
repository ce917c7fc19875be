import ContentWeave.Proofs.Compile.Stages
import ContentWeave.Proofs.Json.RoundTrip
import ContentWeave.Proofs.Session.Depot
import Mathlib.Data.List.Nodup

/-!
# Look-ups return what the store holds

Readers look templates up in a store whose chunks do not change. Each has resident templates and
chunks to load first of its own; they share a cache, or have none. Others may use the cache too, but
store nothing under the keys of chunks. A template can then come from the resident ones, from the
chunks loaded first, from an entry that some reader has left, or from the store: it is always the
one that the store holds, and a chunk that is missing is missing for everyone.
-/

namespace ContentWeave

open TemplateSource (preloadKey lookupKey)

namespace Lookups

/-- A user of the store. The number tells which resident templates are its own. -/
structure Reader where
  who : ℕ
  preload : List Text := []
  ttl : ℕ := 86400000

def cacheOf (shared : Option Backend) : Cache (StateM World) := shared.elim .never Backend.cache

def Reader.source (reader : Reader) (place : Place) (shared : Option Backend) :
    TemplateSource (StateM Depot) where
  store := place.store reader.preload
  cache := (cacheOf shared).inDepot
  ttl := reader.ttl

inductive Event
  | fetch (reader : Reader) (key : Text)
  | preload (reader : Reader)
  | invalidate (tags : List Text)
  /-- Somebody else reads an entry of the cache. -/
  | peek (key : Text)
  /-- Somebody else stores an entry in the cache. -/
  | leave (key value : Text) (ttl : ℕ) (dependency : Dependency)
  | outage (failing : Bool)
  /-- A chunk of the store in memory is put in again, to be loaded first or not. -/
  | mark (key : Text) (first : Bool)

namespace Event

def keys : Event → List Text
  | fetch _ key => [lookupKey key]
  | preload _ => [preloadKey]
  | peek key => [key]
  | leave key _ _ _ => [key]
  | _ => []

/-- Nobody but the readers stores anything under the keys of chunks. -/
def LeavesChunks : Event → Prop
  | leave key _ _ _ => ¬ "chunks:".toList <+: key
  | _ => True

end Event

def keysOf (events : List Event) : Set Text := { key | key ∈ events.flatMap Event.keys }

theorem mem_keysOf {events : List Event} {e : Event} {key : Text} (he : e ∈ events)
    (hkey : key ∈ e.keys) : key ∈ keysOf events :=
  List.mem_flatMap.2 ⟨e, he, hkey⟩

structure State where
  residents : ℕ → TemplateCache := fun _ => {}
  depot : Depot := {}

namespace State

variable {ε α : Type}

def settle (s : State) (who : ℕ) (outcome : Except ε α × TemplateCache × Depot) : State :=
  ⟨Function.update s.residents who outcome.2.1, outcome.2.2⟩

def run (s : State) (reader : Reader) (x : Compile (StateM Depot) α) :
    Except CompileError α × TemplateCache × Depot :=
  x.runFrom (s.residents reader.who) s.depot

def onCache (s : State) (x : ExceptT CacheError (StateM Depot) α) : State :=
  { s with depot := (runOn x s.depot).2 }

def step (place : Place) (shared : Option Backend) (s : State) : Event → State
  | .fetch reader key => s.settle reader.who (s.run reader ((reader.source place shared).fetch key))
  | .preload reader => s.settle reader.who (s.run reader (reader.source place shared).preload)
  | .invalidate tags => s.onCache ((cacheOf shared).inDepot.invalidate tags)
  | .peek key => s.onCache ((cacheOf shared).inDepot.get key)
  | .leave key value ttl dependency =>
    s.onCache ((cacheOf shared).inDepot.set key value ttl dependency)
  | .outage failing => { s with depot := s.depot.withOutage failing }
  | .mark key first => { s with depot := s.depot.mark key first }

def after (place : Place) (shared : Option Backend) (s : State) (events : List Event) : State :=
  events.foldl (step place shared) s

end State

/-- Texts under the keys of chunks that agree with the store: a table of templates that it has, and
what it answers to a look-up. -/
structure Fits (place : Place) (d₀ : Depot) (key value : Text) : Prop where
  preload : key = preloadKey → ∃ table, place.HasAll d₀ table ∧
    value = Json.Codec.texts.encode table
  lookup : ∀ k, key = lookupKey k → ∃ template, place.Has d₀ k template ∧
    value = Json.Codec.optionalText.encode template

namespace Fits

variable {place : Place} {d₀ : Depot}

theorem of_hasAll {table : Table Text Text} (h : place.HasAll d₀ table) :
    Fits place d₀ preloadKey (Json.Codec.texts.encode table) where
  preload _ := ⟨table, h, rfl⟩
  lookup k hkey := absurd hkey.symm (TemplateSource.lookupKey_ne_preloadKey k)

theorem of_has {key : Text} {template : Option Text} (h : place.Has d₀ key template) :
    Fits place d₀ (lookupKey key) (Json.Codec.optionalText.encode template) where
  preload hkey := absurd hkey (TemplateSource.lookupKey_ne_preloadKey key)
  lookup k hkey := by
    obtain rfl : key = k := TemplateSource.lookupKey_injective hkey
    exact ⟨template, h, rfl⟩

theorem of_other_key {key : Text} (h : ¬ "chunks:".toList <+: key) (value : Text) :
    Fits place d₀ key value where
  preload hkey := absurd TemplateSource.chunks_prefix_preloadKey (hkey ▸ h)
  lookup k hkey := absurd (TemplateSource.chunks_prefix_lookupKey k) (hkey ▸ h)

end Fits

section Sharing

variable {place : Place} {shared : Option Backend} {keys : Set Text} {d₀ : Depot}

def Holds (shared : Option Backend) (keys : Set Text) (fits : Text → Text → Prop) (w : World) :
    Prop :=
  ∀ backend ∈ shared, backend.Holds keys fits w

theorem enduring_holds (shared : Option Backend) (fits : Text → Text → Prop) :
    Enduring (Holds shared keys fits) :=
  fun w h backend hb => backend.enduring_holds w (h backend hb)

theorem sound (hnames : ∀ backend ∈ shared, backend.Separates keys) (fits : Text → Text → Prop) :
    (cacheOf shared).Sound keys fits (Holds shared keys fits) := by
  cases shared with
  | none => exact Cache.Sound.never
  | some backend =>
    have hholds : Holds (some backend) keys fits = backend.Holds keys fits := by
      funext w
      simp [Holds]
    rw [hholds]
    exact backend.sound (hnames backend rfl) fits

def Reliable (place : Place) (shared : Option Backend) (keys : Set Text) (d₀ : Depot) :
    Depot → Prop :=
  Depot.Stocked d₀ (Holds shared keys (Fits place d₀))

theorem preload_known (hnames : ∀ backend ∈ shared, backend.Separates keys) (reader : Reader)
    (hkey : preloadKey ∈ keys) :
    Compile.Leads (·.All (place.Has d₀)) (Reliable place shared keys d₀) (fun _ => True)
      (reader.source place shared).preload fun _ _ => True := by
  have hcache := (sound hnames (Fits place d₀)).inDepot d₀
  have hstock : Depot.Undisturbed d₀ (Reliable place shared keys d₀) :=
    Depot.Stocked.undisturbed (enduring_holds shared _)
  have hask := place.preloadedTable_keeps hstock reader.preload
  refine TemplateSource.preload_leads (place.HasAll d₀)
    (fun pre => TemplateSource.throughCache_leads hcache hkey hask ?_ ?_ ?_) ?_ ?_
  · exact fun table htable => .of_hasAll htable
  · intro value table hfits hdecode
    obtain ⟨stored, hstored, rfl⟩ := hfits.preload rfl
    intro k template hk
    rw [Json.Codec.get?_of_decode?_encode_texts hdecode] at hk
    exact hstored k template hk
  · exact fun table htable => htable
  · exact fun _ _ _ _ => trivial
  · exact fun t table hknown _ htable => ⟨hknown.rememberAll htable, trivial⟩

theorem fetch_known (hnames : ∀ backend ∈ shared, backend.Separates keys) (reader : Reader)
    {key : Text} (hkey : lookupKey key ∈ keys) :
    Compile.Leads (·.All (place.Has d₀)) (Reliable place shared keys d₀) (fun _ => True)
      ((reader.source place shared).fetch key) fun template _ => place.Has d₀ key template := by
  have hcache := (sound hnames (Fits place d₀)).inDepot d₀
  have hstock : Depot.Undisturbed d₀ (Reliable place shared keys d₀) :=
    Depot.Stocked.undisturbed (enduring_holds shared _)
  have hask := place.find_keeps hstock reader.preload key
  refine TemplateSource.fetch_leads (place.Has d₀ key)
    (fun pre => TemplateSource.throughCache_leads hcache hkey hask ?_ ?_ ?_) ?_ ?_
  · exact fun template h => .of_has h
  · intro value template hfits hdecode
    obtain ⟨found, hfound, rfl⟩ := hfits.lookup key rfl
    rw [Json.Codec.decode?_encode_optionalText] at hdecode
    cases hdecode
    exact hfound
  · exact fun template h => h
  · exact fun t template hknown _ hr => hknown key template hr
  · exact fun t template hknown _ _ h => ⟨hknown.remember h, h⟩

end Sharing

structure State.Agrees (place : Place) (shared : Option Backend) (keys : Set Text) (d₀ : Depot)
    (s : State) : Prop where
  residents : ∀ who, (s.residents who).All (place.Has d₀)
  depot : Reliable place shared keys d₀ s.depot

section Run

variable {place : Place} {shared : Option Backend} {d₀ : Depot} {events : List Event}

theorem State.Agrees.settle {ε α : Type} {keys : Set Text} {s : State}
    (hs : s.Agrees place shared keys d₀) (who : ℕ)
    {outcome : Except ε α × TemplateCache × Depot} (hknown : outcome.2.1.All (place.Has d₀))
    (hdepot : Reliable place shared keys d₀ outcome.2.2) :
    (s.settle who outcome).Agrees place shared keys d₀ := by
  refine ⟨fun other => ?_, hdepot⟩
  -- a call leaves the templates of the other readers as they are
  by_cases hother : other = who
  · subst hother
    simpa [State.settle] using hknown
  · simpa [State.settle, hother] using hs.residents other

theorem State.Agrees.onCache {α : Type} {keys : Set Text} {s : State}
    (hs : s.Agrees place shared keys d₀) {x : ExceptT CacheError (StateM Depot) α}
    {post : α → Prop} (hx : Keeps (Reliable place shared keys d₀) x post) :
    (s.onCache x).Agrees place shared keys d₀ :=
  ⟨hs.residents, (hx s.depot hs.depot).1⟩

theorem step_agrees (hnames : ∀ backend ∈ shared, backend.Separates (keysOf events)) {s : State}
    {e : Event} (he : e ∈ events) (hothers : e.LeavesChunks)
    (hs : s.Agrees place shared (keysOf events) d₀) :
    (s.step place shared e).Agrees place shared (keysOf events) d₀ := by
  have hcache := (sound hnames (Fits place d₀)).inDepot d₀
  cases e with
  | fetch reader key =>
    have hkey : lookupKey key ∈ keysOf events := mem_keysOf he (by simp [Event.keys])
    obtain ⟨hknown, hdepot, -⟩ := fetch_known hnames reader hkey (s.residents reader.who) s.depot
      (hs.residents reader.who) hs.depot trivial
    exact hs.settle reader.who hknown hdepot
  | preload reader =>
    have hkey : preloadKey ∈ keysOf events := mem_keysOf he (by simp [Event.keys])
    obtain ⟨hknown, hdepot, -⟩ := preload_known hnames reader hkey (s.residents reader.who) s.depot
      (hs.residents reader.who) hs.depot trivial
    exact hs.settle reader.who hknown hdepot
  | invalidate tags => exact hs.onCache (hcache.invalidate tags)
  | peek key => exact hs.onCache (hcache.get key (mem_keysOf he (by simp [Event.keys])))
  | leave key value ttl dependency =>
    have hkey : key ∈ keysOf events := mem_keysOf he (by simp [Event.keys])
    exact hs.onCache (hcache.set key hkey value ttl dependency (.of_other_key hothers value))
  | outage failing => exact ⟨hs.residents, hs.depot.withOutage failing⟩
  | mark key first => exact ⟨hs.residents, hs.depot.mark key first⟩

theorem after_agrees (hnames : ∀ backend ∈ shared, backend.Separates (keysOf events)) {s : State}
    {done : List Event} (hdone : ∀ e ∈ done, e ∈ events ∧ e.LeavesChunks)
    (hs : s.Agrees place shared (keysOf events) d₀) :
    (s.after place shared done).Agrees place shared (keysOf events) d₀ := by
  induction done generalizing s with
  | nil => exact hs
  | cons e done ih =>
    obtain ⟨he, hothers⟩ := hdone e (by simp)
    exact ih (fun f hf => hdone f (by simp [hf])) (step_agrees hnames he hothers hs)

theorem start_agrees (place : Place) (hnew : ∀ backend ∈ shared, ∀ key ∈ keysOf events,
      "chunks:".toList <+: key → backend.kept? d₀.world key = none) :
    ({ depot := d₀ } : State).Agrees place shared (keysOf events) d₀ where
  residents _ := .empty _
  depot := by
    refine ⟨.refl d₀, fun backend hb key hkey value hv => ?_⟩
    by_cases hchunks : "chunks:".toList <+: key
    · rw [hnew backend hb key hkey hchunks] at hv
      cases hv
    · exact .of_other_key hchunks value

end Run

end Lookups

/-- Readers look up, preload and invalidate in any order over a cache that nobody else puts chunks
into, or over none; time passes, and every operation of the cache, of its files and of the store can
fail. Then a look-up that succeeds returns what the store itself answers, whatever is loaded
first. -/
theorem fetch_eq_find {place : Place} {shared : Option Backend} {d₀ d : Depot}
    {events before rest : List Lookups.Event} {reader : Lookups.Reader} {key : Text}
    {template : Option Text}
    (hnew : ∀ backend ∈ shared, ∀ k ∈ Lookups.keysOf events,
      "chunks:".toList <+: k → backend.kept? d₀.world k = none)
    (hsplit : events = before ++ .fetch reader key :: rest)
    (hothers : ∀ e ∈ events, e.LeavesChunks)
    (hnames : ∀ backend ∈ shared, backend.Separates (Lookups.keysOf events))
    (h : ((({ depot := d₀ } : Lookups.State).after place shared before).run reader
      ((reader.source place shared).fetch key)).1 = .ok template)
    (preload : List Text) (hchunks : d₀.SameChunks d) :
    (runOn ((place.store preload).find key) d.calm).1 = .ok template := by
  have hcall : Lookups.Event.fetch reader key ∈ events := by simp [hsplit]
  have hkey : lookupKey key ∈ Lookups.keysOf events :=
    Lookups.mem_keysOf hcall (by simp [Lookups.Event.keys])
  have hbefore : ∀ e ∈ before, e ∈ events ∧ e.LeavesChunks := by
    intro e he
    have hmem : e ∈ events := by simp [hsplit, he]
    exact ⟨hmem, hothers e hmem⟩
  have hreached := Lookups.after_agrees hnames hbefore (Lookups.start_agrees place hnew)
  obtain ⟨-, -, hanswer⟩ := Lookups.fetch_known hnames reader hkey _ _
    (hreached.residents reader.who) hreached.depot trivial
  exact hanswer template h preload d hchunks

def pantry : Depot where
  world :=
    { memory := ⟨.empty, .empty⟩
      tree := ⟨.empty⟩
      turns :=
        List.replicate 4 { now := 5 } ++ [{ now := 7000, fate := .failsLate "lost".toList }] }
  files := ⟨Table.ofList [(["chunks".toList], .directory),
    (["chunks".toList, "tea.html".toList], .file (Text.toUtf8 "Tea".toList))]⟩
  shelf := { chunks := .empty, lookups := .empty }

def shop : Place := .files [] "/chunks".toList "html".toList

def cook : Lookups.Reader := { who := 0, preload := ["tea".toList, "milk".toList] }

def waiter : Lookups.Reader := { who := 1 }

def kitchenCache : Backend := .directory [] "/cache".toList

def shift : List Lookups.Event := [
  .preload cook,
  .preload waiter,
  .fetch cook "milk".toList,
  .leave "menu".toList "null".toList 0 {},
  .fetch waiter "milk".toList,
  .fetch waiter "tea".toList]

theorem fetch_eq_find_shift :
    (((({ depot := pantry } : Lookups.State).after shop (some kitchenCache) (shift.take 4)).run
        waiter ((waiter.source shop (some kitchenCache)).fetch "milk".toList)).1 = .ok none ∧
      (runOn ((shop.store []).find "milk".toList) pantry.calm).1 = .ok none) ∧
    ((({ depot := pantry } : Lookups.State).after shop (some kitchenCache) (shift.take 5)).run
        waiter ((waiter.source shop (some kitchenCache)).fetch "tea".toList)).1 =
          .ok (some "Tea".toList) ∧
      (runOn ((shop.store []).find "tea".toList) pantry.calm).1 = .ok (some "Tea".toList) := by
  have hnew : ∀ backend ∈ some kitchenCache, ∀ k ∈ Lookups.keysOf shift,
      "chunks:".toList <+: k → backend.kept? pantry.world k = none := by
    rintro backend hb k - -
    cases hb
    simp [Backend.kept?, kitchenCache, FileTree.node?, Backend.entryNames, pantry]
  have hothers : ∀ e ∈ shift, e.LeavesChunks := by
    simp [shift, Lookups.Event.LeavesChunks]
  have hnames : ∀ backend ∈ some kitchenCache, backend.Separates (Lookups.keysOf shift) := by
    rintro backend hb
    cases hb
    have hkeys : ∀ key ∈ shift.flatMap Lookups.Event.keys, key ∈ [preloadKey,
        lookupKey "milk".toList, "menu".toList, lookupKey "tea".toList] := by decide +kernel
    have hdiffer : ([preloadKey, lookupKey "milk".toList, "menu".toList,
        lookupKey "tea".toList].map Digest.nameOf).Nodup := by decide +kernel
    exact fun key hkey key' hkey' =>
      List.inj_on_of_nodup_map hdiffer (hkeys key hkey) (hkeys key' hkey')
  have hmilk : ((({ depot := pantry } : Lookups.State).after shop (some kitchenCache)
      (shift.take 4)).run waiter ((waiter.source shop (some kitchenCache)).fetch "milk".toList)).1 =
        .ok none := by
    decide +kernel
  have htea : ((({ depot := pantry } : Lookups.State).after shop (some kitchenCache)
      (shift.take 5)).run waiter ((waiter.source shop (some kitchenCache)).fetch "tea".toList)).1 =
        .ok (some "Tea".toList) := by
    decide +kernel
  have hfirst : shift = shift.take 4 ++ .fetch waiter "milk".toList :: shift.drop 5 := rfl
  have hsecond : shift = shift.take 5 ++ .fetch waiter "tea".toList :: [] := rfl
  exact ⟨⟨hmilk, fetch_eq_find hnew hfirst hothers hnames hmilk [] (.refl pantry)⟩, htea,
    fetch_eq_find hnew hsecond hothers hnames htea [] (.refl pantry)⟩

end ContentWeave
