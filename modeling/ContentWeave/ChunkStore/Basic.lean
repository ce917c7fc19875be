import ContentWeave.ChunkStore.Error

/-!
A chunk store finds templates by key.  That there is no chunk of a key is an answer and no error.
-/

namespace ContentWeave

structure ChunkStore (m : Type → Type) where
  find : Text → ExceptT StorageError m (Option Text)
  findPreloaded : ExceptT StorageError m (List (Text × Text))

end ContentWeave
