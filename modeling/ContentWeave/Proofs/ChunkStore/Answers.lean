import ContentWeave.ChunkStore.Directory
import ContentWeave.Proofs.Cache.Sound

/-!
# What chunk directories answer

Looking up a chunk is reading one file, if the key names a chunk at all. So on a disk the answer of a
chunk directory is a function of the tree of files.
-/

namespace ContentWeave

variable {σ : Type}

/-- As long as `inv` holds, the files that `host` reads are those of a tree. -/
def Host.Shows (host : Host (StateM σ)) (inv : σ → Prop) (here : List Text) (tree : σ → FileTree) :
    Prop :=
  ∀ path s, inv s → (runOn (host.read path) s).1 = (tree s).read here path ∧
    inv (runOn (host.read path) s).2

namespace ChunkDirectory

def failure (e : FileError) (key : Text) : StorageError :=
  { StorageError.ofFault e.fault e.message (some key) with backend := "Fs".toList }

def answerOf (key : Text) : Except FileError Text → Except StorageError (Option Text)
  | .ok text => .ok (some text)
  | .error .notFound => .ok none
  | .error e => .error (failure e key)

/-- What the chunk files say of a key. -/
def answerIn (d : ChunkDirectory) (files : FileTree) (here : List Text) (key : Text) :
    Except StorageError (Option Text) :=
  match d.path? key with
  | none => .ok none
  | some path => answerOf key (files.read here path >>= Host.decode)

variable {d : ChunkDirectory} {here : List Text} {key : Text} {path : Path}

theorem runOn_find (h : d.path? key = some path) (host : Host (StateM σ)) (s : σ) :
    runOn (d.find host key) s =
      (answerOf key (runOn (host.readText path) s).1, (runOn (host.readText path) s).2) := by
  simp only [find, h, runOn, ExceptT.run, ExceptT.mk, StateT.run, bind, StateT.bind]
  rcases host.readText path s with ⟨r, s'⟩
  cases r with
  | ok text => rfl
  | error e => cases e <;> rfl

variable {inv : σ → Prop} {tree : σ → FileTree} {host : Host (StateM σ)}

variable (d key) in
theorem runOn_find_of_shows (hhost : host.Shows inv here tree) {s : σ} (hs : inv s) :
    (runOn (d.find host key) s).1 = d.answerIn (tree s) here key ∧
      inv (runOn (d.find host key) s).2 := by
  unfold answerIn
  cases hpath : d.path? key with
  | none =>
    rw [find, hpath]
    exact ⟨rfl, hs⟩
  | some path =>
    obtain ⟨hread, hi⟩ := hhost path s hs
    rw [runOn_find hpath, Host.runOn_readText, hread]
    exact ⟨rfl, hi⟩

end ChunkDirectory
end ContentWeave
