import ContentWeave.Proofs.Cache.Faults
import ContentWeave.Proofs.Session.Lookups

/-!
# A template operation that fails leaves no trace

Readers use a store and a cache moment by moment. A moment sets the clock and says what is to fail in
it; it is a call of a reader or of somebody else, or the store gets other chunks. Two states are
compared that differ at most by a call that has failed: the readers have the same resident
templates, and the caches are alike for all the times that are to come. Whatever happens then,
the replies are the same.
-/

namespace ContentWeave

open TemplateSource (lookupKey preloadKey)

namespace Depot

/-- The same chunks, in the same state, beside worlds that are related. -/
structure Paired (rel : World → World → Prop) (d d' : Depot) : Prop where
  files : d.files = d'.files
  chunks : d.shelf.chunks = d'.shelf.chunks
  failing : d.shelf.failing = d'.shelf.failing
  world : rel d.world d'.world

variable {ε α : Type} {rel : World → World → Prop} {d₀ d d' : Depot} {post : α → Prop}

theorem Paired.undisturbed (ht : Enduring (rel d₀.world)) : Undisturbed d₀ (Paired rel d₀) where
  chunks _ h := ⟨h.files.symm, fun key => by rw [chunk?, chunk?, h.chunks]⟩
  turn _ h := ⟨h.files, h.chunks, h.failing, ht _ h.world⟩
  asked _ _ _ h := ⟨h.files, h.chunks, h.failing, h.world⟩

theorem Paired.mark (h : d.Paired rel d') (key : Text) (first : Bool) :
    (d.mark key first).Paired rel (d'.mark key first) := by
  obtain ⟨hfiles, hchunks, hfailing, hworld⟩ := h
  unfold Depot.mark chunk?
  rw [← hchunks]
  cases (d.shelf.chunks.get? key).map Prod.fst with
  | none => exact ⟨hfiles, hchunks, hfailing, hworld⟩
  | some template => exact ⟨hfiles, by simp [MemoryStore.insert, hchunks], hfailing, hworld⟩

theorem keeps_inWorld {x : ExceptT ε (StateM World) α} (hx : Keeps (rel d₀.world) x post) :
    Keeps (Paired rel d₀) (ExceptT.mk (inWorld x.run)) post := by
  intro d h
  obtain ⟨hworld, hpost⟩ := hx d.world h.world
  exact ⟨⟨h.files, h.chunks, h.failing, hworld⟩, hpost⟩

theorem uniform_inWorld {x : ExceptT ε (StateM World) α} (hx : Uniform rel x) :
    Uniform (Paired rel) (ExceptT.mk (inWorld x.run)) := by
  intro d d' h
  obtain ⟨hsame, hworld⟩ := hx d.world d'.world h.world
  exact ⟨hsame, h.files, h.chunks, h.failing, hworld⟩

variable {shared : Option Backend} {later : List ℕ}

theorem exposed_uniform {lost : Text → ε} {x : ExceptT ε (StateM Depot) α}
    (hx : Uniform (Paired (World.Same shared later)) x) :
    Uniform (Paired (World.Same shared later)) (exposed lost x) := by
  refine Uniform.of_fate (fun d d' h => ?_) hx
  obtain ⟨hsame, hworld⟩ := h.world.nextTurn
  exact ⟨hsame, h.files, h.chunks, h.failing, hworld⟩

theorem read_uniform (here : List Text) (path : Path) :
    Uniform (Paired (World.Same shared later)) ((disk here).read path) := by
  refine exposed_uniform fun d d' h => ?_
  have hrun : ∀ d : Depot, runOn ((FileTree.host here (inWorld World.clock)).read path) d =
      (d.files.read here path, d) := fun _ => rfl
  rw [hrun, hrun, h.files]
  exact ⟨rfl, h⟩

end Depot

namespace ChunkDirectory

variable {shared : Option Backend} {later : List ℕ} {here : List Text}

theorem find_uniform (c : ChunkDirectory) (key : Text) :
    Uniform (Depot.Paired (World.Same shared later)) (c.find (Depot.disk here) key) := by
  cases hpath : c.path? key with
  | none =>
    simp only [find, hpath]
    exact .pure none
  | some path =>
    have hread : Uniform (Depot.Paired (World.Same shared later)) ((Depot.disk here).readText path) :=
      (Depot.read_uniform here path).transform (f := (· >>= Host.decode)) (Host.runOn_readText _ _)
    exact hread.transform (runOn_find hpath _)

theorem findAll_uniform (c : ChunkDirectory) (keys : List Text) :
    Uniform (Depot.Paired (World.Same shared later)) (c.findAll (Depot.disk here) keys) := by
  induction keys with
  | nil => exact .pure []
  | cons key keys ih =>
    rw [findAll]
    refine (find_uniform c key).bind fun template => ?_
    cases template with
    | none => exact ih
    | some t => exact ih.bind fun found => .pure _

end ChunkDirectory

namespace Place

variable {shared : Option Backend} {later : List ℕ}

theorem find_uniform (place : Place) (preload : List Text) (key : Text) :
    Uniform (Depot.Paired (World.Same shared later)) ((place.store preload).find key) := by
  cases place with
  | files here directory extension => exact ChunkDirectory.find_uniform _ key
  | memory =>
    intro d d' h
    have hrun : ∀ d : Depot,
        (runOn ((MemoryStore.asStore : ChunkStore (StateM Depot)).find key) d).1 =
          if d.shelf.failing then .error MemoryStore.outage
          else .ok ((d.shelf.chunks.get? key).map Prod.fst) := fun _ => rfl
    refine ⟨?_, h.files, h.chunks, h.failing, h.world⟩
    exact (hrun d).trans (by rw [h.failing, h.chunks]; exact (hrun d').symm)

theorem findPreloaded_uniform (place : Place) (preload : List Text) :
    Uniform (Depot.Paired (World.Same shared later)) (place.store preload).findPreloaded := by
  cases place with
  | files here directory extension => exact ChunkDirectory.findAll_uniform _ preload
  | memory =>
    intro d d' h
    have hrun : ∀ d : Depot,
        (runOn (MemoryStore.asStore : ChunkStore (StateM Depot)).findPreloaded d).1 =
          if d.shelf.failing then .error MemoryStore.outage
          else .ok (MemoryStore.preloaded d.shelf) := fun _ => rfl
    refine ⟨?_, h.files, h.chunks, h.failing, h.world⟩
    refine (hrun d).trans ?_
    rw [MemoryStore.preloaded, h.failing, h.chunks]
    exact (hrun d').symm

end Place

namespace Lookups

inductive Happening
  | event (e : Event)
  | restock (files : FileTree) (chunks : Table Text (Text × Bool))

/-- Something that happens at a time, and the turns that its operations take. -/
structure Moment where
  now : ℕ
  turns : List Turn := []
  happening : Happening

def Moment.times (m : Moment) : List ℕ := m.now :: m.turns.map Turn.now

inductive Reply
  | template (result : Except CompileError (Option Text))
  | loaded (result : Except CompileError Unit)
  | entry (result : Except CacheError (Option Text))
  | done (result : Except CacheError Unit)
  | nothing
deriving DecidableEq

def Reply.Failed : Reply → Prop
  | template (.error _) | loaded (.error _) => True
  | _ => False

namespace State

variable (place : Place) (shared : Option Backend)

def reply (s : State) : Event → Reply
  | .fetch reader key => .template (s.run reader ((reader.source place shared).fetch key)).1
  | .preload reader => .loaded (s.run reader (reader.source place shared).preload).1
  | .invalidate tags => .done (runOn ((cacheOf shared).inDepot.invalidate tags) s.depot).1
  | .peek key => .entry (runOn ((cacheOf shared).inDepot.get key) s.depot).1
  | .leave key value ttl dependency =>
    .done (runOn ((cacheOf shared).inDepot.set key value ttl dependency) s.depot).1
  | .outage _ | .mark _ _ => .nothing

def enter (s : State) (m : Moment) : State :=
  { s with depot.world := { s.depot.world with now := m.now, turns := m.turns } }

def live (s : State) (m : Moment) : State :=
  match m.happening with
  | .event e => (s.enter m).step place shared e
  | .restock files chunks =>
    let s := s.enter m
    { s with depot := { s.depot with files, shelf := { s.depot.shelf with chunks } } }

def replyAt (s : State) (m : Moment) : Reply :=
  match m.happening with
  | .event e => (s.enter m).reply place shared e
  | .restock _ _ => .nothing

def toStore (s : State) : Event → Depot
  | .fetch reader key =>
    (reader.source place shared).toStore Json.Codec.optionalText (lookupKey key)
      ((reader.source place shared).store.find key) s.depot
  | .preload reader =>
    (reader.source place shared).toStore Json.Codec.texts preloadKey
      (Table.ofList <$> (reader.source place shared).store.findPreloaded) s.depot
  | _ => s.depot

/-- If a moment comes to store something, what fails in that has done nothing. -/
def StoresEarly (s : State) (m : Moment) : Prop :=
  match m.happening with
  | .event e => ((s.enter m).toStore place shared e).world.FailsEarly
  | .restock _ _ => True

def through (s : State) (ms : List Moment) : State := ms.foldl (live place shared) s

def replies (s : State) : List Moment → List Reply
  | [] => []
  | m :: ms => s.replyAt place shared m :: (s.live place shared m).replies ms

end State

/-- Worlds whose caches are alike at all of the times. -/
def Resting (shared : Option Backend) (times : List ℕ) (w w' : World) : Prop :=
  ∀ backend ∈ shared, backend.Intact w ∧ backend.Intact w' ∧
    ∀ time ∈ times, backend.Alike time w w'

structure State.Paired (rel : World → World → Prop) (s s' : State) : Prop where
  residents : s.residents = s'.residents
  depot : s.depot.Paired rel s'.depot

section Comparing

variable (place : Place) {shared : Option Backend} {later : List ℕ} {s s' : State}

theorem cacheOf_uniform (shared : Option Backend) (later : List ℕ) :
    (cacheOf shared).inDepot.Uniform (Depot.Paired (World.Same shared later)) := by
  have hcache : (cacheOf shared).Uniform (World.Same shared later) := by
    cases shared with
    | none => exact .never _
    | some backend => exact backend.uniform later
  exact
    { get := fun key => Depot.uniform_inWorld (hcache.get key)
      set := fun key value ttl dependency =>
        Depot.uniform_inWorld (hcache.set key value ttl dependency)
      invalidate := fun tags => Depot.uniform_inWorld (hcache.invalidate tags) }

theorem State.Paired.run {α : Type} (h : s.Paired (World.Same shared later) s') (reader : Reader)
    {x : Compile (StateM Depot) α}
    (hx : Compile.Uniform (Depot.Paired (World.Same shared later)) x) :
    (s.run reader x).1 = (s'.run reader x).1 ∧
      (s.settle reader.who (s.run reader x)).Paired (World.Same shared later)
        (s'.settle reader.who (s'.run reader x)) := by
  obtain ⟨hsame, htemplates, hdepot⟩ := hx (s.residents reader.who) s.depot s'.depot h.depot
  have hreader : s.residents reader.who = s'.residents reader.who := congrFun h.residents _
  rw [State.run, State.run, ← hreader]
  refine ⟨hsame, ?_, hdepot⟩
  rw [State.settle, State.settle, htemplates, h.residents]

theorem State.Paired.onCache {α : Type} (h : s.Paired (World.Same shared later) s')
    {x : ExceptT CacheError (StateM Depot) α}
    (hx : Uniform (Depot.Paired (World.Same shared later)) x) :
    (runOn x s.depot).1 = (runOn x s'.depot).1 ∧
      (s.onCache x).Paired (World.Same shared later) (s'.onCache x) := by
  obtain ⟨hsame, hdepot⟩ := hx s.depot s'.depot h.depot
  exact ⟨hsame, h.residents, hdepot⟩

theorem State.Paired.step (h : s.Paired (World.Same shared later) s') (e : Event) :
    s.reply place shared e = s'.reply place shared e ∧
      (s.step place shared e).Paired (World.Same shared later) (s'.step place shared e) := by
  have hcache := cacheOf_uniform shared later
  cases e with
  | fetch reader key =>
    have hfetch : Compile.Uniform (Depot.Paired (World.Same shared later))
        ((reader.source place shared).fetch key) :=
      TemplateSource.fetch_uniform hcache.get hcache.set (place.find_uniform reader.preload key)
    obtain ⟨hsame, hpaired⟩ := h.run reader hfetch
    exact ⟨congrArg Reply.template hsame, hpaired⟩
  | preload reader =>
    have hpreload : Compile.Uniform (Depot.Paired (World.Same shared later))
        (reader.source place shared).preload :=
      TemplateSource.preload_uniform hcache.get hcache.set
        (place.findPreloaded_uniform reader.preload)
    obtain ⟨hsame, hpaired⟩ := h.run reader hpreload
    exact ⟨congrArg Reply.loaded hsame, hpaired⟩
  | invalidate tags =>
    obtain ⟨hsame, hpaired⟩ := h.onCache (hcache.invalidate tags)
    exact ⟨congrArg Reply.done hsame, hpaired⟩
  | peek key =>
    obtain ⟨hsame, hpaired⟩ := h.onCache (hcache.get key)
    exact ⟨congrArg Reply.entry hsame, hpaired⟩
  | leave key value ttl dependency =>
    obtain ⟨hsame, hpaired⟩ := h.onCache (hcache.set key value ttl dependency)
    exact ⟨congrArg Reply.done hsame, hpaired⟩
  | outage failing =>
    exact ⟨rfl, h.residents, h.depot.files, h.depot.chunks, rfl, h.depot.world⟩
  | mark key first => exact ⟨rfl, h.residents, h.depot.mark key first⟩

theorem Resting.enter {m : Moment} {w w' : World}
    (hclock : ∀ backend ∈ shared, backend.Follows (m.times ++ later))
    (h : Resting shared (m.times ++ later) w w') :
    World.Same shared later { w with now := m.now, turns := m.turns }
      { w' with now := m.now, turns := m.turns } := by
  refine ⟨rfl, rfl, fun backend hb => ?_⟩
  obtain ⟨hintact, hintact', halike⟩ := h backend hb
  have hnow := halike m.now (by simp [Moment.times])
  have hfollows := hclock backend hb
  cases backend with
  | memory => exact ⟨hfollows, hintact, hintact', hnow⟩
  | directory here root => exact ⟨hfollows, hintact, hintact', hnow⟩

theorem resting_of_twins {w w' : World} (h : ∀ backend ∈ shared, backend.Twins later w w') :
    Resting shared later w w' := by
  intro backend hb
  obtain ⟨hclock, hintact, hintact', halike⟩ := h backend hb
  exact ⟨hintact, hintact', fun time htime => halike.mono hclock (List.mem_append_right _ htime)⟩

/-- A moment has the same reply in both states, and leaves them paired. -/
theorem State.Paired.live {m : Moment}
    (hclock : ∀ backend ∈ shared, backend.Follows (m.times ++ later))
    (h : s.Paired (Resting shared (m.times ++ later)) s') :
    s.replyAt place shared m = s'.replyAt place shared m ∧
      (s.live place shared m).Paired (Resting shared later) (s'.live place shared m) := by
  have henter : (s.enter m).Paired (World.Same shared later) (s'.enter m) :=
    ⟨h.residents, h.depot.files, h.depot.chunks, h.depot.failing,
      Resting.enter hclock h.depot.world⟩
  unfold State.replyAt State.live
  cases m.happening with
  | event e =>
    obtain ⟨hreply, hstep⟩ := henter.step place e
    exact ⟨hreply, hstep.residents, hstep.depot.files, hstep.depot.chunks, hstep.depot.failing,
      resting_of_twins hstep.depot.world.twins⟩
  | restock files chunks =>
    exact ⟨rfl, henter.residents, rfl, rfl, henter.depot.failing,
      resting_of_twins henter.depot.world.twins⟩

theorem State.Paired.through {ms : List Moment}
    (hclock : ∀ backend ∈ shared, backend.Follows (ms.flatMap Moment.times ++ later))
    (h : s.Paired (Resting shared (ms.flatMap Moment.times ++ later)) s') :
    s.replies place shared ms = s'.replies place shared ms ∧
      (s.through place shared ms).Paired (Resting shared later) (s'.through place shared ms) := by
  induction ms generalizing s s' with
  | nil => exact ⟨rfl, h⟩
  | cons m ms ih =>
    rw [List.flatMap_cons, List.append_assoc] at hclock h
    obtain ⟨hreply, hlive⟩ := h.live place hclock
    obtain ⟨hreplies, hthrough⟩ := ih (fun backend hb => (hclock backend hb).of_append) hlive
    exact ⟨by rw [State.replies, State.replies, hreply, hreplies], hthrough⟩

end Comparing

section Failing

variable {place : Place} {shared : Option Backend} {later : List ℕ} {s : State} {m : Moment}

theorem get_keeps_traceless (shared : Option Backend) (later : List ℕ) (d₀ : Depot) (key : Text) :
    Keeps (d₀.Paired (World.Traceless shared later)) ((cacheOf shared).inDepot.get key)
      fun _ => True := by
  refine Depot.keeps_inWorld ?_
  cases shared with
  | none => exact Keeps.pure trivial
  | some backend => exact backend.get_keeps_traceless key

theorem set_traceless (shared : Option Backend) (later : List ℕ) (d₀ : Depot) (key value : Text)
    (ttl : ℕ) (dependency : Dependency) (d : Depot)
    (hd : d₀.Paired (World.Traceless shared later) d) (hearly : d.world.FailsEarly) (e : CacheError)
    (he : (runOn ((cacheOf shared).inDepot.set key value ttl dependency) d).1 = .error e) :
    d₀.Paired (World.Traceless shared later)
      (runOn ((cacheOf shared).inDepot.set key value ttl dependency) d).2 := by
  cases shared with
  | none => cases he
  | some backend =>
    have hset := backend.set_attempts_traceless key value ttl dependency d.world ⟨hd.world, hearly⟩
    exact ⟨hd.files, hd.chunks, hd.failing, (hset e he).1⟩

theorem undisturbed_traceless (shared : Option Backend) (later : List ℕ) (d₀ : Depot) :
    Depot.Undisturbed d₀ (d₀.Paired (World.Traceless shared later)) :=
  Depot.Paired.undisturbed (World.Traceless.enduring shared later d₀.world)

theorem enter_traceless (hclock : ∀ backend ∈ shared, backend.Follows (m.times ++ later))
    (hintact : ∀ backend ∈ shared, backend.Intact s.depot.world) :
    s.depot.Paired (World.Traceless shared later) (s.enter m).depot := by
  refine ⟨rfl, rfl, rfl, fun backend hb => ?_, fun backend hb key value hv => ?_⟩
  · have hfollows := hclock backend hb
    have hready := hintact backend hb
    have halike := Backend.Alike.refl backend m.now s.depot.world
    cases backend with
    | memory => exact ⟨hfollows, hready, hready, halike⟩
    | directory here root => exact ⟨hfollows, hready, hready, halike⟩
  · cases backend with
    | memory => exact hv
    | directory here root => exact hv

theorem settle_of_failed {α : Type} {reader : Reader}
    {outcome : Except CompileError α × TemplateCache × Depot} {d₀ : Depot}
    {rel : World → World → Prop}
    (h : outcome.2.1 = s.residents reader.who ∧ d₀.Paired rel outcome.2.2) :
    (s.settle reader.who outcome).residents = s.residents ∧
      d₀.Paired rel (s.settle reader.who outcome).depot := by
  refine ⟨?_, h.2⟩
  exact (congrArg (Function.update s.residents reader.who) h.1).trans (Function.update_eq_self _ _)

/-- A call that fails leaves the templates of all readers as they are, and the cache without a
trace. -/
theorem live_of_failed (hearly : s.StoresEarly place shared m)
    (hclock : ∀ backend ∈ shared, backend.Follows (m.times ++ later))
    (hintact : ∀ backend ∈ shared, backend.Intact s.depot.world)
    (hfailed : (s.replyAt place shared m).Failed) :
    (s.live place shared m).residents = s.residents ∧
      s.depot.Paired (World.Traceless shared later) (s.live place shared m).depot := by
  have hstart := enter_traceless hclock hintact
  have hget := get_keeps_traceless shared later s.depot
  have hset := set_traceless shared later s.depot
  unfold State.replyAt at hfailed
  unfold State.StoresEarly at hearly
  unfold State.live
  cases hhappening : m.happening with
  | restock files chunks =>
    rw [hhappening] at hfailed
    exact hfailed.elim
  | event e =>
    rw [hhappening] at hfailed hearly
    cases e with
    | fetch reader key =>
      have hask := Keeps.mono (place.find_keeps (undisturbed_traceless shared later s.depot)
        reader.preload key) fun _ _ => trivial
      cases hr : ((s.enter m).run reader ((reader.source place shared).fetch key)).1 with
      | ok template => simp [State.reply, hr, Reply.Failed] at hfailed
      | error e =>
        have hfails := TemplateSource.fetch_of_error hget hset hstart hask hearly hr
        exact settle_of_failed hfails
    | preload reader =>
      have hask := Keeps.mono (place.findPreloaded_keeps
        (undisturbed_traceless shared later s.depot) reader.preload) fun _ _ => trivial
      cases hr : ((s.enter m).run reader (reader.source place shared).preload).1 with
      | ok u => simp [State.reply, hr, Reply.Failed] at hfailed
      | error e =>
        have hfails := TemplateSource.preload_of_error hget hset hstart hask hearly hr
        exact settle_of_failed hfails
    | _ => exact hfailed.elim

end Failing

end Lookups

/-- A look-up or a preload that fails leaves no trace, wherever it fails: no reader has another
template than before, at most entries have been dropped from the cache, and whatever is called
later, by readers or by others who use the cache, has the reply that it would have had without the
failed call. Storing that fails has done nothing here, and the clock that a cache in memory goes by
does not go back. -/
theorem failed_call_leaves_no_trace {place : Place} {shared : Option Backend} {d₀ : Depot}
    {before rest : List Lookups.Moment} {m : Lookups.Moment}
    (hintact : ∀ backend ∈ shared, backend.Intact d₀.world)
    (hclock : ∀ backend ∈ shared, backend.Follows
      ((before ++ m :: rest).flatMap Lookups.Moment.times))
    (hearly : (({ depot := d₀ } : Lookups.State).through place shared before).StoresEarly
      place shared m)
    (hfailed : ((({ depot := d₀ } : Lookups.State).through place shared before).replyAt
      place shared m).Failed) :
    let s := ({ depot := d₀ } : Lookups.State).through place shared before
    let s' := s.live place shared m
    s'.residents = s.residents ∧
      (∀ backend ∈ shared, ∀ key value, backend.kept? s'.depot.world key = some value →
        backend.kept? s.depot.world key = some value) ∧
      s'.replies place shared rest = s.replies place shared rest := by
  intro s s'
  have hstart : ({ depot := d₀ } : Lookups.State).Paired
      (Lookups.Resting shared (before.flatMap Lookups.Moment.times ++
        (m :: rest).flatMap Lookups.Moment.times)) { depot := d₀ } :=
    ⟨rfl, rfl, rfl, rfl, fun backend hb => ⟨hintact backend hb, hintact backend hb,
      fun time _ => Backend.Alike.refl backend time d₀.world⟩⟩
  rw [List.flatMap_append] at hclock
  obtain ⟨-, hreached⟩ := hstart.through place hclock
  have hready : ∀ backend ∈ shared, backend.Intact s.depot.world :=
    fun backend hb => (hreached.depot.world backend hb).1
  have hlater : ∀ backend ∈ shared, backend.Follows (m.times ++ rest.flatMap Lookups.Moment.times) :=
    fun backend hb => (hclock backend hb).of_append
  obtain ⟨hresidents, hdepot⟩ := Lookups.live_of_failed hearly hlater hready hfailed
  refine ⟨hresidents, hdepot.world.kept, ?_⟩
  -- from here on the state with the failed call keeps pace with the state without it
  have hafter : s'.Paired (Lookups.Resting shared (rest.flatMap Lookups.Moment.times ++ [])) s := by
    rw [List.append_nil]
    exact ⟨hresidents, hdepot.files.symm, hdepot.chunks.symm, hdepot.failing.symm,
      Lookups.resting_of_twins hdepot.world.twins⟩
  refine (hafter.through place fun backend hb => ?_).1
  rw [List.append_nil]
  exact (hlater backend hb).of_append

namespace Lookups

def missed : Moment where
  now := 0
  happening := .event (.fetch { cook with ttl := 10 } "milk".toList)

def spilled : Moment where
  now := 20
  turns := [{ now := 20 }, { now := 20 }, { now := 21, fate := .fails "full".toList }]
  happening := .event (.fetch waiter "milk".toList)

def delivered : List Moment := [
  { now := 30, happening := .restock ⟨Table.ofList [(["chunks".toList], .directory),
    (["chunks".toList, "milk.html".toList], .file (Text.toUtf8 "Milk".toList))]⟩ .empty },
  { now := 31, happening := .event (.fetch waiter "milk".toList) },
  { now := 32, happening := .event (.peek (lookupKey "milk".toList)) }]

end Lookups

theorem failed_call_leaves_no_trace_milk :
    let s := ({ depot := pantry } : Lookups.State).through shop (some .memory) [Lookups.missed]
    let s' := s.live shop (some .memory) Lookups.spilled
    s.replyAt shop (some .memory) Lookups.spilled =
        .template (.error (.cache (.backend "full".toList))) ∧
      s'.replies shop (some .memory) Lookups.delivered = [.nothing,
        .template (.ok (some "Milk".toList)), .entry (.ok (some "\"Milk\"".toList))] := by
  have hintact : ∀ backend ∈ some Backend.memory, backend.Intact pantry.world := by
    rintro backend hb
    cases hb
    exact MemoryCache.timely_empty
  have hclock : ∀ backend ∈ some Backend.memory, backend.Follows
      (([Lookups.missed] ++ Lookups.spilled :: Lookups.delivered).flatMap Lookups.Moment.times) := by
    intro backend _ _
    decide
  have hearly : (({ depot := pantry } : Lookups.State).through shop (some .memory)
      [Lookups.missed]).StoresEarly shop (some .memory) Lookups.spilled := by
    have hleft : (((({ depot := pantry } : Lookups.State).through shop (some .memory)
        [Lookups.missed]).enter Lookups.spilled).toStore shop (some .memory)
          (.fetch waiter "milk".toList)).world.turns = [⟨21, .fails "full".toList⟩] := by rfl
    intro turn hturn
    rw [hleft] at hturn
    simp [List.mem_singleton.1 hturn]
  have hreply : (({ depot := pantry } : Lookups.State).through shop (some .memory)
      [Lookups.missed]).replyAt shop (some .memory) Lookups.spilled =
        .template (.error (.cache (.backend "full".toList))) := by
    decide +kernel
  have hfailed : ((({ depot := pantry } : Lookups.State).through shop (some .memory)
      [Lookups.missed]).replyAt shop (some .memory) Lookups.spilled).Failed := by
    rw [hreply]
    exact trivial
  obtain ⟨-, -, hreplies⟩ := failed_call_leaves_no_trace hintact hclock hearly hfailed
  exact ⟨hreply, hreplies.trans (by decide +kernel)⟩

end ContentWeave
