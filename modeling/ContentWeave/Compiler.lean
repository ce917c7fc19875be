import ContentWeave.Directive
import ContentWeave.Duration
import ContentWeave.Form
import ContentWeave.Template
import ContentWeave.TemplateCache

/-!
Compiling content: every directive gives way to what it stands for.  A chunk call becomes its
template, filled with the arguments of the call; what it became is kept in a cache, under the key of
the directive and the key of the content.  A form directive becomes its widget, and any other
directive nothing.
-/

namespace ContentWeave

structure Compiler (m : Type → Type) where
  templates : TemplateSource m
  cache : Cache m
  formats : Format.Formats := Format.Registry.builtins {}
  forms : FormRenderer := .hidden
  /-- How long what a chunk call became is kept, in milliseconds. -/
  renderTtl : Nat := 84600000

namespace Compiler

def ofStore {m : Type → Type} (store : ChunkStore m) (cache : Cache m) : Compiler m where
  templates := { store, cache }
  cache

def renderKey (key contentKey : Text) : Text := key ++ contentKey

variable {m : Type → Type} [Monad m]

def fill (c : Compiler m) (template : Text) (arguments : ArgumentSet) : Text :=
  Template.fill c.formats arguments template

def renderForm (c : Compiler m) (key : Text) : Text :=
  match FormSpec.parse key with
  | some spec => c.forms spec
  | none => []

/-- What a chunk call stands for; a chunk that does not exist leaves nothing and is not kept. -/
def renderChunk (c : Compiler m) (d : Directive) (contentKey : Text) (dependency : Dependency) :
    Compile m Text := do
  match ← c.templates.fetch d.key with
  | none => return []
  | some template =>
    let rendered := c.fill template (ArgumentSet.parse d.raw)
    Compile.ofCache (c.cache.set (renderKey d.key contentKey) rendered c.renderTtl dependency)
    return rendered

def expand (c : Compiler m) (d : Directive) (contentKey : Text) (dependency : Dependency) :
    Compile m Text := do
  match ← Compile.ofCache (c.cache.get (renderKey d.key contentKey)) with
  | some rendered => return rendered
  | none =>
    match d.kind with
    | .chunk => c.renderChunk d contentKey dependency
    | .form => return c.renderForm d.key
    | .unknown => return []

def expandAll (c : Compiler m) (contentKey : Text) (dependency : Dependency) :
    List Directive → Compile m (List Text)
  | [] => return []
  | d :: ds => do
    let expansion ← c.expand d contentKey dependency
    return expansion :: (← expandAll c contentKey dependency ds)

/-- The content with its directives replaced, equal directives alike. -/
def compile (c : Compiler m) (content contentKey : Text) (dependency : Dependency) :
    Compile m Text := do
  c.templates.preload
  let directives := Directive.scan content
  let expansions ← c.expandAll contentKey dependency directives
  return Replacements.apply ⟨(directives.map (·.raw)).zip expansions⟩ content

def summary (c : Compiler m) (resident : TemplateCache) : Text :=
  "ContentCompiler \x7b chunks: ChunkCache \x7b ttl: ".toList ++ Duration.text c.templates.ttl
    ++ ", preloaded: ".toList ++ (if resident.preloaded then "true" else "false").toList
    ++ ", len: ".toList ++ Text.ofNat resident.size ++ ", .. \x7d, render_ttl: ".toList
    ++ Duration.text c.renderTtl ++ ", .. \x7d".toList

end Compiler
end ContentWeave
