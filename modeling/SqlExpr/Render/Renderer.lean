-- SUMMARY: The sink that collects SQL text and bind parameters, counts nesting, and numbers placeholders.
import SqlExpr.Render.Sink
import SqlExpr.Settings.Basic

/-!
# Rendering to text

A renderer collects the text of its writes and the values they bind. It is used for any
number of steps; a step that fails leaves what it has written. `Expr.render` is the
rendering of one expression with a fresh renderer, `Expr.renderWithin` one to a limited
number of bytes.
-/

namespace SqlExpr

/-! ## The text of a write -/

namespace Settings

/-- The name of a column or table, quoted if the settings ask for it. -/
def nameText (s : Settings) (d : Dialect) (name : String) : String :=
  if s.quoteIdentifiers then d.quoteIdentifier name else name

/-- A column behind its table, if it names one. -/
def columnText (s : Settings) (d : Dialect) (c : Column) : String :=
  match c.table with
  | some table => s.nameText d table ++ "." ++ s.nameText d c.name
  | none => s.nameText d c.name

/-- The constant is written out, for its own sake or by the settings. -/
def writesOut (s : Settings) (c : Constant) : Bool := c.inline || s.paramStyle == .inline

/-- The placeholder for the `index`-th parameter. -/
def placeholder (s : Settings) (d : Dialect) (index : Nat) : String :=
  match s.paramStyle with
  | .dialect => d.placeholder index
  | _ => "?"

/-- The text of a write made when `bound` parameters have been bound. -/
def text (s : Settings) (d : Dialect) (bound : Nat) : Write → String
  | .keyword k => s.keywordCase.apply k.text
  | .sql text => text
  | .functionName f => s.keywordCase.apply (d.functionName f)
  | .identifier c => s.columnText d c
  | .value c => if s.writesOut c then c.value.literal d else s.placeholder d (bound + 1)

/-- The value that a write binds, if it binds one. -/
def binds (s : Settings) : Write → Option Value
  | .value c => if s.writesOut c then none else some c.value
  | _ => none

end Settings

/-! ## Renderers -/

/-- Why a rendering failed. -/
inductive RenderError
  /-- Expressions nest deeper than the settings allow. -/
  | depthExceeded (limit : UInt64)
  /-- The text could not be taken up. -/
  | format
  deriving DecidableEq, Repr

def RenderError.message : RenderError → String
  | .depthExceeded limit => s!"expression nesting exceeds the configured limit of {limit}"
  | .format => "failed to write SQL: an error occurred when formatting an argument"

structure Renderer where
  dialect : Dialect
  settings : Settings := {}
  /-- The text written so far. -/
  sql : String := ""
  /-- The values bound so far, in the order of their placeholders. -/
  params : Array Value := #[]
  /-- How many visits are under way. -/
  depth : Nat := 0
  deriving DecidableEq, Repr

namespace Renderer

/-- Take up one write. -/
def write (r : Renderer) (w : Write) : Renderer :=
  { r with
    sql := r.sql ++ r.settings.text r.dialect r.params.size w
    params := r.params ++ (r.settings.binds w).toArray }

/-- The depth limit, once as many visits are under way as it allows. -/
def reachedLimit? (r : Renderer) : Option UInt64 :=
  r.settings.maxDepth.filter (·.toNat ≤ r.depth)

/-- Run the rendering of a visited expression one level deeper. -/
def nested (body : EStateM RenderError Renderer Unit) :
    EStateM RenderError Renderer Unit := fun r =>
  match r.reachedLimit? with
  | some limit => .error (.depthExceeded limit) r
  | none =>
    match body { r with depth := r.depth + 1 } with
    | .ok _ r => .ok () { r with depth := r.depth - 1 }
    | .error e r => .error e { r with depth := r.depth - 1 }

/-- Renderers as sinks. -/
def sink (d : Dialect) : Sink RenderError Renderer where
  dialect := d
  write w := fun r => .ok () (r.write w)
  visit _ body := nested body

/-- Visit an expression: render it one level deeper. -/
def visit (e : Expr) : EStateM RenderError Renderer Unit := fun r =>
  nested (e.renderInto (sink r.dialect)) r

/-! ## Steps -/

/-- One use of a renderer. -/
inductive Step
  | visit (e : Expr)
  /-- Render the expression itself, at the depth of its surroundings. -/
  | render (e : Expr)
  | write (w : Write)
  deriving Repr

/-- Do one step. Whether it fails or not, the renderer can go on. -/
def step (r : Renderer) (s : Step) : Option RenderError × Renderer :=
  let outcome :=
    match s with
    | .visit e => visit e r
    | .render e => e.renderInto (sink r.dialect) r
    | .write w => .ok () (r.write w)
  match outcome with
  | .ok _ r => (none, r)
  | .error e r => (some e, r)

/-- Do several steps, whatever becomes of each. -/
def run (r : Renderer) (steps : List Step) : Renderer :=
  steps.foldl (fun r s => (r.step s).2) r

end Renderer

/-! ## Whole expressions -/

/-- Text with the values of its placeholders in order. -/
structure Rendered where
  sql : String
  params : Array Value
  deriving DecidableEq, Repr

def Renderer.rendered (r : Renderer) : Rendered := ⟨r.sql, r.params⟩

/-- Render an expression for a dialect. -/
def Expr.render (e : Expr) (d : Dialect) (settings : Settings := {}) :
    Except RenderError Rendered :=
  match Renderer.visit e { dialect := d, settings } with
  | .ok _ r => .ok r.rendered
  | .error err _ => .error err

/-! ## Limited text

A renderer that fails as soon as its text is longer than a number of bytes. The write that crosses
the limit is still taken up. Nesting is not counted. -/

/-- Renderers as sinks that fail beyond `limit` bytes of text. -/
def Renderer.limitedSink (d : Dialect) (limit : Nat) : Sink RenderError Renderer where
  dialect := d
  write w := fun r =>
    let r := r.write w
    if r.sql.utf8ByteSize ≤ limit then .ok () r else .error .format r
  visit _ body := body

/-- Render an expression to at most `limit` bytes. -/
def Expr.renderWithin (limit : Nat) (e : Expr) (d : Dialect) (settings : Settings := {}) :
    Except RenderError Rendered :=
  match e.renderInto (Renderer.limitedSink d limit) { dialect := d, settings } with
  | .ok _ r => .ok r.rendered
  | .error err _ => .error err

end SqlExpr
