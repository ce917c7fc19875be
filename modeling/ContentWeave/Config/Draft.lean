import ContentWeave.Config.Basic
import ContentWeave.Config.Variable
import ContentWeave.Toml.Reader

/-!
Configurations as files give them: settings can hold references to variables, and paths are taken
from a directory that is not known yet.  Settings that a file leaves out have their defaults, and
what it says beyond them is passed over, unless it is a number that no machine holds.
-/

namespace ContentWeave.Config

structure Draft where
  chunks : ChunkDirectory := { directory := "chunks".toList }
  cache : CacheSettings := {}
  format : Format.Settings := {}
deriving DecidableEq

namespace Draft

def fieldFinder? (names : List Text) (fields : Toml.Fields) : Option (Text → Option Toml.Value) :=
  if fields.all fun (name, value) => names.contains name || value.isHeld then
    some fun name => fields.lookup name
  else none

/-- Where the settings of a section are.  A table has them under names, an array has them one after
the other, and a date has none. -/
def finder? (names : List Text) : Toml.Value → Option (Text → Option Toml.Value)
  | .table _ fields => fieldFinder? names fields
  | .array items => some fun name => (names.zip items).lookup name
  | .tables items => some fun name => (names.zip (items.map (.table .header))).lookup name
  | .scalar .moment => some fun _ => none
  | .scalar _ => none

def readOr {α : Type} (read : Toml.Value → Option α) (default : α) :
    Option Toml.Value → Option α
  | none => some default
  | some value => read value

def text? : Toml.Value → Option Text
  | .scalar (.string t) => some t
  | _ => none

def texts? : Toml.Value → Option (List Text)
  | .array items => items.mapM text?
  | _ => none

def flag? : Toml.Value → Option Bool
  | .scalar (.boolean b) => some b
  | _ => none

def maxSeconds : Nat := 0xffffffffffffffff

def seconds? : Toml.Value → Option Nat
  | .scalar (.integer n) => if 0 ≤ n ∧ n ≤ maxSeconds then some n.toNat else none
  | _ => none

def chunks? (v : Toml.Value) : Option ChunkDirectory := do
  let dir := "dir".toList
  let extension := "extension".toList
  let preload := "preload".toList
  let find ← finder? [dir, extension, preload] v
  let d : ChunkDirectory := ({} : Draft).chunks
  return {
    directory := ← readOr text? d.directory (find dir)
    extension := ← readOr text? d.extension (find extension)
    preload := ← readOr texts? d.preload (find preload) }

def cache? (v : Toml.Value) : Option CacheSettings := do
  let enabled := "enabled".toList
  let renderTtl := "render_ttl".toList
  let chunkTtl := "chunk_ttl".toList
  let find ← finder? [enabled, renderTtl, chunkTtl] v
  let d : CacheSettings := {}
  return {
    enabled := ← readOr flag? d.enabled (find enabled)
    renderTtl := ← readOr seconds? d.renderTtl (find renderTtl)
    chunkTtl := ← readOr seconds? d.chunkTtl (find chunkTtl) }

def format? (v : Toml.Value) : Option Format.Settings := do
  let decimalSeparator := "decimal_separator".toList
  let thousandSeparator := "thousand_separator".toList
  let currencyCode := "currency_code".toList
  let booleanTrue := "boolean_true".toList
  let booleanFalse := "boolean_false".toList
  let find ← finder?
    [decimalSeparator, thousandSeparator, currencyCode, booleanTrue, booleanFalse] v
  let d : Format.Settings := {}
  return {
    decimalSeparator := ← readOr text? d.decimalSeparator (find decimalSeparator)
    thousandSeparator := ← readOr text? d.thousandSeparator (find thousandSeparator)
    currencyCode := ← readOr text? d.currencyCode (find currencyCode)
    booleanTrue := ← readOr text? d.booleanTrue (find booleanTrue)
    booleanFalse := ← readOr text? d.booleanFalse (find booleanFalse) }

def ofFields? (fields : Toml.Fields) : Option Draft := do
  let chunks := "chunks".toList
  let cache := "cache".toList
  let format := "format".toList
  let find ← fieldFinder? [chunks, cache, format] fields
  return {
    chunks := ← readOr chunks? ({} : Draft).chunks (find chunks)
    cache := ← readOr cache? {} (find cache)
    format := ← readOr format? {} (find format) }

def parse? (s : Text) : Option Draft := (Toml.parse? s).bind ofFields?

def resolve (d : Draft) (directory : Path) : Config where
  chunks := { d.chunks with directory := Path.join directory d.chunks.directory }
  cache := d.cache
  format := d.format
  project := directory

variable {m : Type → Type} [Monad m]

def expandSetting (lookup : Text → m (Option Text)) (setting : Setting) (value : Text) :
    ExceptT ConfigError m Text :=
  (SettingPart.expand lookup value).adapt (.unset setting)

def expand (d : Draft) (lookup : Text → m (Option Text)) : ExceptT ConfigError m Draft := do
  let directory ← expandSetting lookup .chunkDirectory d.chunks.directory
  let extension ← expandSetting lookup .chunkExtension d.chunks.extension
  let currencyCode ← expandSetting lookup .currencyCode d.format.currencyCode
  return { d with
    chunks := { d.chunks with directory, extension }
    format := { d.format with currencyCode } }

end Draft

def ofDirectory (directory : Path) : Config := ({} : Draft).resolve directory

end ContentWeave.Config
