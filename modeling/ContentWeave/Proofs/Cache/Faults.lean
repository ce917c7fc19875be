import ContentWeave.Proofs.Cache.InMemory
import ContentWeave.Proofs.Cache.Installed
import ContentWeave.Proofs.Compile.Faults

/-!
# Caches under faults

Two caches are alike from a time on if nothing that they hold then tells them apart. Every operation
returns the same on both and leaves them alike, whatever fails in it. Reading leaves a cache like
itself, and so does storing that fails; at most an entry that counts no longer is dropped.
-/

namespace ContentWeave

theorem runOn_exposed {ε α : Type} (lost : Text → ε) (x : ExceptT ε (StateM World) α) (w : World) :
    runOn (exposed lost x) w =
      match (World.nextTurn.run w).1 with
      | .works => runOn x (World.nextTurn.run w).2
      | .fails reason => (.error (lost reason), (World.nextTurn.run w).2)
      | .failsLate reason =>
        ((runOn x (World.nextTurn.run w).2).1.bind fun _ => .error (lost reason),
          (runOn x (World.nextTurn.run w).2).2) := by
  have hturn : runOn (liftM World.nextTurn : ExceptT ε (StateM World) Fate) w =
      (.ok (World.nextTurn.run w).1, (World.nextTurn.run w).2) := rfl
  rw [exposed, runOn_bind, hturn]
  dsimp only
  cases (World.nextTurn.run w).1 with
  | works => rfl
  | fails reason => rfl
  | failsLate reason =>
    dsimp only
    rw [runOn_bind]
    rcases runOn x (World.nextTurn.run w).2 with ⟨e | a, w'⟩ <;> rfl

theorem runOn_exposed_of_ok {ε α : Type} {lost : Text → ε} {x : ExceptT ε (StateM World) α}
    {w : World} {a : α} (h : (runOn (exposed lost x) w).1 = .ok a) :
    runOn (exposed lost x) w = runOn x (World.nextTurn.run w).2 := by
  rw [runOn_exposed] at h ⊢
  cases hfate : (World.nextTurn.run w).1 with
  | works => rfl
  | fails reason =>
    rw [hfate] at h
    cases h
  | failsLate reason =>
    rw [hfate] at h
    cases hr : (runOn x (World.nextTurn.run w).2).1 with
    | ok b =>
      simp only [hr, Except.bind] at h
      cases h
    | error e =>
      simp only [hr, Except.bind] at h
      cases h

theorem Attempts.exposed {ε α : Type} {lost : Text → ε} {x : ExceptT ε (StateM World) α}
    {inv : World → Prop} (ht : Enduring inv)
    (hfates : ∀ w, inv w → ∀ reason, (World.nextTurn.run w).1 ≠ .failsLate reason)
    (hx : Attempts inv x) : Attempts inv (exposed lost x) := by
  intro w hw e he
  have hnext := ht w hw
  rw [runOn_exposed] at he ⊢
  cases hfate : (World.nextTurn.run w).1 with
  | works =>
    rw [hfate] at he
    exact hx _ hnext e he
  | fails reason => exact hnext
  | failsLate reason => exact absurd hfate (hfates w hw reason)

theorem Attempts.attempt {σ α : Type} {x : ExceptT FileError (StateM σ) α} {inv : σ → Prop}
    (hx : Attempts inv x) : Attempts inv (DirectoryCache.attempt x) := by
  intro s hs e he
  rw [DirectoryCache.runOn_attempt] at he ⊢
  cases hr : (runOn x s).1 with
  | ok a =>
    rw [hr] at he
    cases he
  | error e' => exact hx s hs e' hr

theorem disk.change_attempts {inv : World → Prop} (f : FileTree → Except FileError FileTree) :
    Attempts inv (FileTree.change f : ExceptT FileError (StateM World) Unit) := by
  intro w hw e he
  rw [disk.runOn_change] at he ⊢
  cases hf : f w.tree with
  | ok t =>
    rw [hf] at he
    cases he
  | error e' => exact hw

theorem Uniform.of_fate {σ ε α : Type} {rel : σ → σ → Prop} {lost : Text → ε} {turn : StateM σ Fate}
    {x : ExceptT ε (StateM σ) α}
    (hturn : ∀ s s', rel s s' → (turn.run s).1 = (turn.run s').1 ∧
      rel (turn.run s).2 (turn.run s').2) (hx : Uniform rel x) :
    Uniform rel (do
      match ← turn with
      | .works => x
      | .fails reason => throw (lost reason)
      | .failsLate reason => do
        let _ ← x
        throw (lost reason)) := by
  have hfate : Uniform rel (liftM turn : ExceptT ε (StateM σ) Fate) :=
    fun s s' h => ⟨congrArg Except.ok (hturn s s' h).1, (hturn s s' h).2⟩
  refine hfate.bind fun fate => ?_
  cases fate with
  | works => exact hx
  | fails reason => exact .throw _
  | failsLate reason => exact hx.bind fun _ => .throw _

theorem Uniform.exposed {ε α : Type} {lost : Text → ε} {x : ExceptT ε (StateM World) α}
    {rel : World → World → Prop}
    (hturn : ∀ w w', rel w w' → (World.nextTurn.run w).1 = (World.nextTurn.run w').1 ∧
      rel (World.nextTurn.run w).2 (World.nextTurn.run w').2)
    (hx : Uniform rel x) : Uniform rel (exposed lost x) :=
  of_fate hturn hx

theorem Cache.Uniform.exposed {cache : Cache (StateM World)} {rel : World → World → Prop}
    (hturn : ∀ w w', rel w w' → (World.nextTurn.run w).1 = (World.nextTurn.run w').1 ∧
      rel (World.nextTurn.run w).2 (World.nextTurn.run w').2)
    (h : cache.Uniform rel) : cache.exposed.Uniform rel where
  get key := ContentWeave.Uniform.exposed hturn (h.get key)
  set key value ttl dependency := ContentWeave.Uniform.exposed hturn (h.set key value ttl dependency)
  invalidate tags := ContentWeave.Uniform.exposed hturn (h.invalidate tags)

def World.times (w : World) : List ℕ := w.now :: w.turns.map Turn.now

namespace Backend

/-- What is true of every cache that has been made and used. -/
def Intact (backend : Backend) (w : World) : Prop :=
  match backend with
  | memory => w.memory.Timely
  | directory here root => DirectoryCache.Installed w.tree here root

/-- From `now` on, nothing that counts tells the caches of `w` and `w'` apart. -/
def Alike (backend : Backend) (now : ℕ) (w w' : World) : Prop :=
  match backend with
  | memory => MemoryCache.AlikeFrom now w.memory w'.memory
  | directory here root => ∀ drawer s, DirectoryCache.fileIn w.tree here root drawer s =
      DirectoryCache.fileIn w'.tree here root drawer s

/-- The clock of a cache in memory does not go back. -/
def Follows (backend : Backend) (times : List ℕ) : Prop :=
  backend = .memory → times.Pairwise (· ≤ ·)

variable {backend : Backend} {w w' : World} {now now' : ℕ} {times later : List ℕ}

theorem Follows.of_cons (h : backend.Follows (now :: times)) : backend.Follows times :=
  fun hb => (List.pairwise_cons.1 (h hb)).2

theorem Follows.of_append (h : backend.Follows (times ++ later)) : backend.Follows later :=
  fun hb => (List.pairwise_append.1 (h hb)).2.1

theorem Alike.refl (backend : Backend) (now : ℕ) (w : World) : backend.Alike now w w := by
  cases backend with
  | memory => exact fun _ _ _ => rfl
  | directory here root => exact fun _ _ => rfl

theorem Alike.mono (h : backend.Alike now w w') (hclock : backend.Follows (now :: times))
    (hlater : now' ∈ times) : backend.Alike now' w w' := by
  cases backend with
  | memory => exact MemoryCache.AlikeFrom.mono h ((List.pairwise_cons.1 (hclock rfl)).1 now' hlater)
  | directory here root => exact h

structure Twins (backend : Backend) (later : List ℕ) (w w' : World) : Prop where
  clock : backend.Follows (w.times ++ later)
  intact : backend.Intact w
  intact' : backend.Intact w'
  alike : backend.Alike w.now w w'

theorem Twins.turn_left (h : backend.Twins later w w') :
    backend.Twins later (World.nextTurn.run w).2 w' := by
  obtain ⟨hclock, hintact, hintact', halike⟩ := h
  rcases w with ⟨memory, tree, now, turns⟩
  cases turns with
  | nil => exact ⟨hclock, hintact, hintact', halike⟩
  | cons turn turns =>
    have hmoved : backend.Alike turn.now ⟨memory, tree, now, turn :: turns⟩ w' :=
      halike.mono hclock (by simp)
    cases backend with
    | memory => exact ⟨hclock.of_cons, hintact, hintact', hmoved⟩
    | directory here root => exact ⟨hclock.of_cons, hintact, hintact', hmoved⟩

theorem Twins.turn_right (h : backend.Twins later w w') :
    backend.Twins later w (World.nextTurn.run w').2 := by
  obtain ⟨hclock, hintact, hintact', halike⟩ := h
  obtain ⟨now, turns, hnext⟩ := w'.exists_of_nextTurn
  rw [hnext]
  cases backend with
  | memory => exact ⟨hclock, hintact, hintact', halike⟩
  | directory here root => exact ⟨hclock, hintact, hintact', halike⟩

end Backend

/-- Worlds that go the same way, with caches that are alike. -/
structure World.Same (shared : Option Backend) (later : List ℕ) (w w' : World) : Prop where
  now : w.now = w'.now
  turns : w.turns = w'.turns
  twins : ∀ backend ∈ shared, backend.Twins later w w'

namespace World.Same

variable {shared : Option Backend} {later : List ℕ} {w w' : World}

theorem nextTurn (h : Same shared later w w') :
    (World.nextTurn.run w).1 = (World.nextTurn.run w').1 ∧
      Same shared later (World.nextTurn.run w).2 (World.nextTurn.run w').2 := by
  have hnext : (World.nextTurn.run w).1 = (World.nextTurn.run w').1 ∧
      (World.nextTurn.run w).2.now = (World.nextTurn.run w').2.now ∧
      (World.nextTurn.run w).2.turns = (World.nextTurn.run w').2.turns := by
    obtain ⟨hnow, hturns, -⟩ := h
    rcases w with ⟨memory, tree, now, turns⟩
    rcases w' with ⟨memory', tree', now', turns'⟩
    obtain rfl : now = now' := hnow
    obtain rfl : turns = turns' := hturns
    cases turns <;> exact ⟨rfl, rfl, rfl⟩
  obtain ⟨hfate, hnow, hturns⟩ := hnext
  exact ⟨hfate, hnow, hturns, fun backend hb => (h.twins backend hb).turn_left.turn_right⟩

end World.Same

namespace MemoryCache

variable {later : List ℕ}

theorem uniform (later : List ℕ) :
    (asCache World.clock : Cache (StateM World)).Uniform (World.Same (some .memory) later) := by
  have hstep : ∀ {w w' : World} (call : CacheCall), World.Same (some .memory) later w w' →
      World.Same (some .memory) later { w with memory := w.memory.step ⟨w.now, call⟩ }
        { w' with memory := w'.memory.step ⟨w'.now, call⟩ } := by
    intro w w' call h
    obtain ⟨hclock, hintact, hintact', halike⟩ := h.twins _ rfl
    refine ⟨h.now, h.turns, fun backend hb => ?_⟩
    cases hb
    refine ⟨hclock, hintact.step _, hintact'.step _, ?_⟩
    have hle : w.now ≤ TimedCall.now ⟨w.now, call⟩ := Nat.le_refl _
    rw [← h.now]
    exact step_alike hintact hintact' halike hle
  refine ⟨fun key w w' h => ⟨?_, hstep (.get key) h⟩, fun key value ttl dependency w w' h =>
    ⟨rfl, hstep (.set key value ttl dependency) h⟩, fun tags w w' h =>
    ⟨rfl, hstep (.invalidate tags) h⟩⟩
  have hrun : ∀ w : World, (runOn ((asCache World.clock : Cache (StateM World)).get key) w).1 =
      .ok (w.memory.get w.now key).1 := fun _ => rfl
  have halike := (h.twins _ rfl).alike
  rw [hrun, hrun, get_eq_holds?, get_eq_holds?, ← h.now, halike w.now (Nat.le_refl _)]

end MemoryCache

namespace Backend

open DirectoryCache (Drawer Installed fileIn)

variable {here : List Text} {root : Path} {later : List ℕ}

theorem withTrees {w w' : World} {t t' : FileTree}
    (h : World.Same (some (directory here root)) later w w') (ht : Installed t here root)
    (ht' : Installed t' here root)
    (hfiles : ∀ drawer s, fileIn t here root drawer s = fileIn t' here root drawer s) :
    World.Same (some (directory here root)) later { w with tree := t } { w' with tree := t' } := by
  refine ⟨h.now, h.turns, fun backend hb => ?_⟩
  have hclock := (h.twins _ rfl).clock
  cases hb
  exact ⟨hclock, ht, ht', hfiles⟩

theorem read_uniform (drawer : Drawer) (s : Text) :
    Uniform (World.Same (some (directory here root)) later)
      ((disk here).read (Path.join (drawer.path root) (Digest.nameOf s))) := by
  refine Uniform.exposed (fun _ _ h => h.nextTurn) fun w w' h => ?_
  have hrun : ∀ (path : Path) (w : World), runOn ((FileTree.host here World.clock).read path) w =
      (w.tree.read here path, w) := fun _ _ => rfl
  obtain ⟨-, hintact, hintact', halike⟩ := h.twins _ rfl
  have hfile := Installed.read_file hintact drawer s
  have hfile' := Installed.read_file hintact' drawer s
  have hsame : fileIn w.tree here root drawer s = fileIn w'.tree here root drawer s :=
    halike drawer s
  rw [hrun, hrun, hfile, hfile', hsame]
  exact ⟨rfl, h⟩

theorem version_uniform (tag : Text) :
    Uniform (World.Same (some (directory here root)) later)
      ((directoryCache here root).version tag) := by
  have hread : Uniform (World.Same (some (directory here root)) later)
      ((disk here).readText (Path.join (Drawer.tags.path root) (Digest.nameOf tag))) :=
    (read_uniform .tags tag).transform (f := (· >>= Host.decode)) (Host.runOn_readText _ _)
  unfold DirectoryCache.version
  refine (hread.transform (DirectoryCache.runOn_ifFound _)).bind fun found => ?_
  cases found with
  | none => exact .pure 0
  | some content => exact .pure _

theorem areCurrent_uniform (tags : List (Text × ℕ)) :
    Uniform (World.Same (some (directory here root)) later)
      ((directoryCache here root).areCurrent tags) := by
  induction tags with
  | nil => exact .pure true
  | cons entry tags ih =>
    obtain ⟨tag, version⟩ := entry
    rw [DirectoryCache.areCurrent]
    refine (version_uniform tag).bind fun current => ?_
    split_ifs
    · exact ih
    · exact .pure false

theorem seconds_uniform :
    Uniform (World.Same (some (directory here root)) later)
      (liftM (directoryCache here root).seconds : ExceptT CacheError (StateM World) ℕ) := by
  intro w w' h
  have hrun : ∀ w : World, runOn (liftM (directoryCache here root).seconds :
      ExceptT CacheError (StateM World) ℕ) w = (.ok (w.now / 1000), w) := fun _ => rfl
  rw [hrun, hrun, h.now]
  exact ⟨rfl, h⟩

theorem get_uniform (key : Text) :
    Uniform (World.Same (some (directory here root)) later) ((directoryCache here root).get key) := by
  unfold DirectoryCache.get
  refine ((read_uniform .entries key).transform (DirectoryCache.runOn_ifFound _)).bind fun found => ?_
  cases found with
  | none => exact .pure none
  | some bytes =>
    dsimp only
    cases CacheEntry.decode? bytes with
    | none => exact .pure none
    | some e =>
      refine seconds_uniform.bind fun now => ?_
      split_ifs
      · exact .pure none
      · refine (areCurrent_uniform _).bind fun current => ?_
        split_ifs
        · exact .pure _
        · exact .pure none

theorem directory_of_made {w : World} {drawer : Drawer} {u : Unit}
    (hw : Installed w.tree here root)
    (h : (runOn ((disk here).makeDirectories (drawer.path root)) w).1 = .ok u) :
    (runOn ((disk here).makeDirectories (drawer.path root)) w).2.tree.node?
      (drawer.names here root) = some .directory := by
  obtain ⟨now, turns, hnext⟩ := w.exists_of_nextTurn
  have hrun : runOn ((disk here).makeDirectories (drawer.path root)) w =
      runOn (FileTree.change (·.makeDirectories here (drawer.path root)))
        (World.nextTurn.run w).2 := runOn_exposed_of_ok h
  rw [hrun, hnext, disk.runOn_change]
  dsimp only
  rw [hw.makeDirectories_drawer drawer]
  exact hw.directory_make drawer

theorem makeDirectories_uniform (drawer : Drawer) :
    Uniform (World.Same (some (directory here root)) later)
      ((disk here).makeDirectories (drawer.path root)) := by
  refine Uniform.exposed (fun _ _ h => h.nextTurn) fun w w' h => ?_
  have hrun : ∀ w : World, Installed w.tree here root →
      runOn ((FileTree.host here World.clock).makeDirectories (drawer.path root)) w =
        (.ok (), { w with tree := w.tree.make (drawer.names here root) }) := by
    intro w hw
    refine (disk.runOn_change _ w).trans ?_
    rw [hw.makeDirectories_drawer drawer]
  obtain ⟨-, hintact, hintact', halike⟩ := h.twins _ rfl
  rw [hrun w hintact, hrun w' hintact']
  refine ⟨rfl, withTrees h (Installed.make hintact drawer) (Installed.make hintact' drawer) ?_⟩
  intro other s
  rw [DirectoryCache.fileIn_make, DirectoryCache.fileIn_make]
  exact halike other s

def SameDrawer (here : List Text) (root : Path) (later : List ℕ) (drawer : Drawer) (w w' : World) :
    Prop :=
  World.Same (some (directory here root)) later w w' ∧
    w.tree.node? (drawer.names here root) = some .directory ∧
    w'.tree.node? (drawer.names here root) = some .directory

theorem replace_uniform (drawer : Drawer) (s : Text) (content : Bytes) :
    Uniform (SameDrawer here root later drawer)
      ((disk here).replace (Path.join (drawer.path root) (Digest.nameOf s)) content) := by
  have hturn : ∀ w w' : World, SameDrawer here root later drawer w w' →
      (World.nextTurn.run w).1 = (World.nextTurn.run w').1 ∧
        SameDrawer here root later drawer (World.nextTurn.run w).2 (World.nextTurn.run w').2 := by
    rintro w w' ⟨h, hd, hd'⟩
    obtain ⟨hfate, hnext⟩ := h.nextTurn
    refine ⟨hfate, hnext, ?_⟩
    obtain ⟨now, turns, hw⟩ := w.exists_of_nextTurn
    obtain ⟨now', turns', hw'⟩ := w'.exists_of_nextTurn
    rw [hw, hw']
    exact ⟨hd, hd'⟩
  refine Uniform.exposed hturn ?_
  rintro w w' ⟨h, hd, hd'⟩
  have hrun : ∀ w : World, Installed w.tree here root →
      w.tree.node? (drawer.names here root) = some .directory →
      runOn ((FileTree.host here World.clock).replace
          (Path.join (drawer.path root) (Digest.nameOf s)) content) w =
        (.ok (), { w with tree := DirectoryCache.putIn w.tree here root drawer s content }) := by
    intro w hw hd
    refine (disk.runOn_change _ w).trans ?_
    rw [hw.write_file s content hd]
  obtain ⟨-, hintact, hintact', halike⟩ := h.twins _ rfl
  rw [hrun w hintact hd, hrun w' hintact' hd']
  refine ⟨rfl, withTrees h (Installed.putIn hintact drawer s content)
    (Installed.putIn hintact' drawer s content) ?_, ?_, ?_⟩
  · intro other s'
    rw [DirectoryCache.fileIn_putIn, DirectoryCache.fileIn_putIn]
    split_ifs
    · rfl
    · exact halike other s'
  · exact FileTree.directory_of_put ((Installed.tidy hintact drawer).files _) hd
  · exact FileTree.directory_of_put ((Installed.tidy hintact' drawer).files _) hd'

theorem store_uniform (drawer : Drawer) (s : Text) (content : Bytes) :
    Uniform (World.Same (some (directory here root)) later)
      ((directoryCache here root).store (drawer.path root) (Digest.nameOf s) content) := by
  have hmake : Uniform (World.Same (some (directory here root)) later)
      (DirectoryCache.attempt ((disk here).makeDirectories (drawer.path root))) :=
    (makeDirectories_uniform drawer).transform (DirectoryCache.runOn_attempt _)
  have hreplace : Uniform (SameDrawer here root later drawer) (DirectoryCache.attempt
      ((disk here).replace (Path.join (drawer.path root) (Digest.nameOf s)) content)) :=
    (replace_uniform drawer s content).transform (DirectoryCache.runOn_attempt _)
  refine hmake.bind_of_ok fun w w' u h hok hok' => ?_
  -- the drawer is there in both worlds, since it has been made in both
  have hdrawer : ∀ w : World, Installed w.tree here root →
      (runOn (DirectoryCache.attempt ((disk here).makeDirectories (drawer.path root))) w).1 = .ok u →
      (runOn (DirectoryCache.attempt ((disk here).makeDirectories (drawer.path root))) w).2.tree.node?
        (drawer.names here root) = some .directory := by
    intro w hw hok
    rw [DirectoryCache.runOn_attempt] at hok ⊢
    cases hmade : (runOn ((disk here).makeDirectories (drawer.path root)) w).1 with
    | ok u => exact directory_of_made hw hmade
    | error e =>
      rw [hmade] at hok
      cases hok
  obtain ⟨-, hintact, hintact', -⟩ := h.twins _ rfl
  obtain ⟨hsame, hafter, -⟩ := hreplace _ _ ⟨(hmake w w' h).2, hdrawer w hintact hok,
    hdrawer w' hintact' hok'⟩
  exact ⟨hsame, hafter⟩

theorem set_uniform (key value : Text) (ttl : ℕ) (dependency : Dependency) :
    Uniform (World.Same (some (directory here root)) later)
      ((directoryCache here root).set key value ttl dependency) := by
  have hversion : ∀ tag : Text, Uniform (World.Same (some (directory here root)) later)
      (do return (tag, ← (directoryCache here root).version tag)) :=
    fun tag => (version_uniform tag).bind fun _ => .pure _
  unfold DirectoryCache.set
  refine (Uniform.mapM hversion _).bind fun tags => ?_
  split_ifs
  · exact (Uniform.throw _).bind fun (u : PUnit) => seconds_uniform.bind fun now =>
      store_uniform .entries key _
  · exact seconds_uniform.bind fun now => store_uniform .entries key _

theorem invalidate_uniform (tags : List Text) :
    Uniform (World.Same (some (directory here root)) later)
      ((directoryCache here root).invalidate tags) := by
  induction tags with
  | nil => exact .pure ()
  | cons tag tags ih =>
    rw [DirectoryCache.invalidate]
    refine (version_uniform tag).bind fun version => ?_
    exact (store_uniform .tags tag _).bind fun _ => ih

/-- Every operation of a cache returns the same on caches that are alike, and leaves them alike,
whatever fails in it. -/
theorem uniform (backend : Backend) (later : List ℕ) :
    backend.cache.Uniform (World.Same (some backend) later) := by
  cases backend with
  | memory => exact (MemoryCache.uniform later).exposed fun _ _ h => h.nextTurn
  | directory here root =>
    have hcache : (directoryCache here root).asCache.Uniform
        (World.Same (some (directory here root)) later) :=
      { get := get_uniform
        set := set_uniform
        invalidate := invalidate_uniform }
    exact hcache.exposed fun _ _ h => h.nextTurn

end Backend

/-- What is still to fail in a world is to fail without doing its work. -/
def World.FailsEarly (w : World) : Prop :=
  ∀ turn ∈ w.turns, ∀ reason, turn.fate ≠ .failsLate reason

namespace World.FailsEarly

variable {w : World}

theorem nextTurn (h : w.FailsEarly) : (World.nextTurn.run w).2.FailsEarly := by
  rcases w with ⟨memory, tree, now, turns⟩
  cases turns with
  | nil => exact h
  | cons turn turns => exact fun later hlater => h later (List.mem_cons_of_mem _ hlater)

theorem ne_failsLate (h : w.FailsEarly) (reason : Text) :
    (World.nextTurn.run w).1 ≠ .failsLate reason := by
  rcases w with ⟨memory, tree, now, turns⟩
  cases turns with
  | nil => exact Fate.noConfusion
  | cons turn turns => exact h turn List.mem_cons_self reason

end World.FailsEarly

/-- `w` has gone on from `w₀` without a trace: the caches are alike, and at most entries have been
dropped. -/
structure World.Traceless (shared : Option Backend) (later : List ℕ) (w₀ w : World) : Prop where
  twins : ∀ backend ∈ shared, backend.Twins later w w₀
  kept : ∀ backend ∈ shared, ∀ key value, backend.kept? w key = some value →
    backend.kept? w₀ key = some value

namespace World.Traceless

variable {w₀ : World}

theorem enduring (shared : Option Backend) (later : List ℕ) (w₀ : World) :
    Enduring (Traceless shared later w₀) := by
  intro w hw
  refine ⟨fun backend hb => (hw.twins backend hb).turn_left, fun backend hb key value hv => ?_⟩
  obtain ⟨now, turns, hnext⟩ := w.exists_of_nextTurn
  rw [hnext] at hv
  cases backend with
  | memory => exact hw.kept _ hb key value hv
  | directory here root => exact hw.kept _ hb key value hv

theorem enduring_early (shared : Option Backend) (later : List ℕ) (w₀ : World) :
    Enduring fun w => Traceless shared later w₀ w ∧ w.FailsEarly :=
  fun w hw => ⟨enduring shared later w₀ w hw.1, hw.2.nextTurn⟩

end World.Traceless

namespace MemoryCache

variable {later : List ℕ} {w₀ : World}

theorem get_traceless (key : Text) : Keeps (World.Traceless (some .memory) later w₀)
    ((asCache World.clock : Cache (StateM World)).get key) fun _ => True := by
  intro w hw
  have hrun : runOn ((asCache World.clock : Cache (StateM World)).get key) w =
      (.ok (w.memory.get w.now key).1, { w with memory := (w.memory.get w.now key).2 }) := rfl
  rw [hrun]
  refine ⟨⟨fun backend hb => ?_, fun backend hb j value hv => ?_⟩, fun _ _ => trivial⟩
  · obtain ⟨hclock, hintact, hintact₀, halike⟩ := hw.twins backend hb
    cases hb
    -- what has been dropped would not have counted again
    refine ⟨hclock, hintact.get w.now key, hintact₀, fun later hle j => ?_⟩
    exact (holds?_get hle key j).trans (halike later hle j)
  · cases hb
    obtain ⟨e, he, rfl⟩ := Option.map_eq_some_iff.1 hv
    exact hw.kept _ rfl j _ (Option.map_eq_some_iff.2 ⟨e, entry_of_get_entry he, rfl⟩)

end MemoryCache

namespace Backend

open DirectoryCache (Drawer Installed fileIn)

variable {here : List Text} {root : Path} {later : List ℕ} {w₀ : World}

theorem kept?_directory (here : List Text) (root : Path) (w : World) (key : Text) :
    (directory here root).kept? w key =
      (fileIn w.tree here root .entries key).bind fun bytes => textOf? (.file bytes) := by
  have hnames : entryNames here root key = Drawer.entries.names here root ++ [Digest.nameOf key] :=
    (List.append_assoc (Path.namesFrom here root) [Drawer.entries.label] [Digest.nameOf key]).symm
  rw [kept?, hnames, fileIn, FileTree.content?]
  cases w.tree.node? (Drawer.entries.names here root ++ [Digest.nameOf key]) with
  | none => rfl
  | some node => cases node <;> rfl

theorem makeDirectories_traceless (drawer : Drawer) :
    Keeps (fun w => World.Traceless (some (directory here root)) later w₀ w ∧ w.FailsEarly)
      ((disk here).makeDirectories (drawer.path root)) fun _ => True := by
  refine disk.makeDirectories_keeps (World.Traceless.enduring_early _ _ _) fun w t hw ht => ?_
  obtain ⟨hw, hearly⟩ := hw
  obtain ⟨hclock, hintact, hintact₀, halike⟩ := hw.twins _ rfl
  obtain rfl : w.tree.make (drawer.names here root) = t := by
    rw [Installed.makeDirectories_drawer hintact drawer] at ht
    exact Except.ok.inj ht
  refine ⟨⟨fun backend hb => ?_, fun backend hb key value hv => ?_⟩, hearly⟩
  · cases hb
    refine ⟨hclock, Installed.make hintact drawer, hintact₀, fun other s => ?_⟩
    exact (DirectoryCache.fileIn_make ..).trans (halike other s)
  · cases hb
    refine hw.kept _ rfl key value ?_
    rw [kept?_directory] at hv ⊢
    rw [← hv]
    exact congrArg (Option.bind · _) (DirectoryCache.fileIn_make ..).symm

theorem set_traceless (key value : Text) (ttl : ℕ) (dependency : Dependency) :
    Attempts (fun w => World.Traceless (some (directory here root)) later w₀ w ∧ w.FailsEarly)
      ((directoryCache here root).set key value ttl dependency) := by
  have ht := World.Traceless.enduring_early (some (directory here root)) later w₀
  have hversion : ∀ tag : Text,
      Keeps (fun w => World.Traceless (some (directory here root)) later w₀ w ∧ w.FailsEarly)
        (do return (tag, ← (directoryCache here root).version tag)) fun _ => True :=
    fun tag => Keeps.bind (version_keeps ht tag) fun _ _ => Keeps.pure trivial
  unfold DirectoryCache.set
  refine Attempts.bind (Keeps.mapM hversion _) fun tags _ => ?_
  split_ifs
  · exact Attempts.bind (Keeps.throw _) fun _ (h : False) => h.elim
  · refine Attempts.bind seconds_keeps fun now _ => ?_
    refine Attempts.bind (Keeps.attempt (makeDirectories_traceless .entries)) fun _ _ => ?_
    -- the last step is the only one that can change an answer, and it has failed
    exact (Attempts.exposed ht (fun w hw => hw.2.ne_failsLate) (disk.change_attempts _)).attempt

theorem get_keeps_traceless (backend : Backend) (key : Text) :
    Keeps (World.Traceless (some backend) later w₀) (backend.cache.get key) fun _ => True := by
  have ht := World.Traceless.enduring (some backend) later w₀
  cases backend with
  | memory => exact Keeps.exposed ht (MemoryCache.get_traceless key)
  | directory here root =>
    have hget : Keeps (World.Traceless (some (directory here root)) later w₀)
        ((directoryCache here root).get key) fun found => ∀ value ∈ found, True :=
      get_keeps ht fun _ _ _ _ _ _ => trivial
    exact Keeps.exposed ht (Keeps.mono hget fun _ _ => trivial)

theorem set_attempts_traceless (backend : Backend) (key value : Text) (ttl : ℕ)
    (dependency : Dependency) :
    Attempts (fun w => World.Traceless (some backend) later w₀ w ∧ w.FailsEarly)
      (backend.cache.set key value ttl dependency) := by
  have ht := World.Traceless.enduring_early (some backend) later w₀
  cases backend with
  | memory =>
    refine Attempts.exposed ht (fun w hw => hw.2.ne_failsLate) fun w _ e he => ?_
    cases he
  | directory here root =>
    exact Attempts.exposed ht (fun w hw => hw.2.ne_failsLate) (set_traceless key value ttl dependency)

end Backend
end ContentWeave
