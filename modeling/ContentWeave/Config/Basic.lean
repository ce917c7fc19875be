import ContentWeave.ChunkStore.Directory
import ContentWeave.Format.Settings

/-!
What a project is configured with: where its chunks are, how results are cached, and how values are
formatted.  A configuration that was loaded has passed validation.
-/

namespace ContentWeave

structure CacheSettings where
  enabled : Bool := true
  /-- How long what a chunk call became is kept, in seconds. -/
  renderTtl : Nat := 84600
  /-- How long the look-up of a chunk is kept, in seconds. -/
  chunkTtl : Nat := 86400
deriving DecidableEq

structure Config where
  chunks : ChunkDirectory
  cache : CacheSettings := {}
  format : Format.Settings := {}
  project : Path
  file : Option Path := none
deriving DecidableEq

inductive Setting where
  | chunkDirectory | chunkExtension | renderTtl | chunkTtl | decimalSeparator | currencyCode
deriving DecidableEq

def Setting.name : Setting → Text
  | chunkDirectory => "chunks.dir".toList
  | chunkExtension => "chunks.extension".toList
  | renderTtl => "cache.render_ttl".toList
  | chunkTtl => "cache.chunk_ttl".toList
  | decimalSeparator => "format.decimal_separator".toList
  | currencyCode => "format.currency_code".toList

inductive ConfigError where
  | notFound (path : Path)
  | io (cause : FileError)
  | malformed
  | unset (setting : Setting) (name : Text)
  | empty (setting : Setting)
  | zero (setting : Setting)
  | leadingDot (setting : Setting)
deriving DecidableEq

def ConfigError.message : ConfigError → Text
  | notFound path => "Configuration file not found: ".toList ++ path
  | io cause => "I/O error: ".toList ++ cause.message
  | malformed => "TOML parse error".toList
  | unset setting name =>
    "Environment variable error in ".toList ++ setting.name ++ ": $\x7b".toList ++ name
      ++ "\x7d not set".toList
  | empty setting => invalid setting " cannot be empty".toList
  | zero setting => invalid setting " must be greater than 0".toList
  | leadingDot setting => invalid setting " must not start with '.'".toList
where
  invalid (setting : Setting) (fault : Text) : Text :=
    "Configuration error: ".toList ++ setting.name ++ fault

namespace Config

def fileName : Text := "cb.toml".toList

def dataDirectory (c : Config) : Path := Path.join c.project ".cb".toList

def cacheDirectory (c : Config) : Path := Path.join c.dataDirectory "cache".toList

def requireText (setting : Setting) (value : Text) : Except ConfigError Unit :=
  if value = [] then .error (.empty setting) else .ok ()

def requirePositive (setting : Setting) (value : Nat) : Except ConfigError Unit :=
  if value = 0 then .error (.zero setting) else .ok ()

def validate (c : Config) : Except ConfigError Unit := do
  requireText .chunkExtension c.chunks.extension
  if Text.startsWith ['.'] c.chunks.extension then throw (.leadingDot .chunkExtension)
  requirePositive .renderTtl c.cache.renderTtl
  requirePositive .chunkTtl c.cache.chunkTtl
  requireText .decimalSeparator c.format.decimalSeparator

end Config

structure Overrides where
  chunkDirectory : Option Path := none
  cacheEnabled : Option Bool := none

def Config.override (c : Config) (o : Overrides) : Config :=
  { c with
    chunks := { c.chunks with directory := o.chunkDirectory.getD c.chunks.directory }
    cache := { c.cache with enabled := o.cacheEnabled.getD c.cache.enabled } }

end ContentWeave
