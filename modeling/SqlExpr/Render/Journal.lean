-- SUMMARY: A renderer that keeps apart what each of its writes appended, and the text of writes in fragments.
import SqlExpr.Render.Renderer

/-!
# Journals

A renderer keeps only its whole text. A journal is a renderer that also keeps the text in
fragments, one for every write, and otherwise goes through the same steps.
-/

namespace SqlExpr

/-- A write and the text that it appended. -/
structure Fragment where
  write : Write
  text : String
  deriving DecidableEq, Repr

/-- The fragment stands for a value: it was written for a constant that is neither marked inline
    nor written out by the settings. -/
def Fragment.isPlaceholder (s : Settings) (f : Fragment) : Bool :=
  match f.write with
  | .value c => !s.writesOut c
  | _ => false

structure Journal where
  renderer : Renderer
  /-- What has been written, in order. -/
  fragments : List Fragment := []
  deriving Repr

namespace Journal

/-- The text that a write would append now. -/
def textOf (j : Journal) (w : Write) : String :=
  j.renderer.settings.text j.renderer.dialect j.renderer.params.size w

/-- Take up one write and keep its text. -/
def write (j : Journal) (w : Write) : Journal where
  renderer := j.renderer.write w
  fragments := j.fragments ++ [⟨w, j.textOf w⟩]

def atDepth (j : Journal) (n : Nat) : Journal :=
  { j with renderer := { j.renderer with depth := n } }

/-- Run the rendering of a visited expression one level deeper. -/
def nested (body : EStateM RenderError Journal Unit) : EStateM RenderError Journal Unit := fun j =>
  match j.renderer.reachedLimit? with
  | some limit => .error (.depthExceeded limit) j
  | none =>
    match body (j.atDepth (j.renderer.depth + 1)) with
    | .ok _ j => .ok () (j.atDepth (j.renderer.depth - 1))
    | .error e j => .error e (j.atDepth (j.renderer.depth - 1))

/-- Journals as sinks. -/
def sink (d : Dialect) : Sink RenderError Journal where
  dialect := d
  write w := fun j => .ok () (j.write w)
  visit _ body := nested body

/-- Do one step, whatever becomes of it. -/
def step (j : Journal) (s : Renderer.Step) : Journal :=
  let outcome :=
    match s with
    | .visit e => nested (e.renderInto (sink j.renderer.dialect)) j
    | .render e => e.renderInto (sink j.renderer.dialect) j
    | .write w => .ok () (j.write w)
  match outcome with
  | .ok _ j | .error _ j => j

/-- Do several steps, whatever becomes of each. -/
def run (j : Journal) (steps : List Renderer.Step) : Journal := steps.foldl step j

end Journal

/-! ## Fragments

What a renderer appends for a sequence of writes falls into one fragment for each write. Only the
placeholders among them depend on what was bound before. -/

/-- The fragments that writes append when `bound` parameters have been bound. -/
def Settings.fragments (s : Settings) (d : Dialect) : (bound : Nat) → List Write → List Fragment
  | _, [] => []
  | bound, w :: ws =>
    ⟨w, s.text d bound w⟩ :: fragments s d (bound + (s.binds w).toList.length) ws

/-- Append fragments and parameters. -/
def Renderer.append (r : Renderer) (fragments : List Fragment) (values : List Value) : Renderer :=
  { r with
    sql := r.sql ++ String.join (fragments.map (·.text))
    params := r.params ++ values.toArray }

namespace Fragment

/-- Put the labels in the place of the placeholders, one after the other. -/
def relabel (s : Settings) : List Fragment → (labels : List String) → List Fragment
  | f :: fs, label :: labels =>
    if f.isPlaceholder s then { f with text := label } :: relabel s fs labels
    else f :: relabel s fs (label :: labels)
  | fs, _ => fs

/-- `count` placeholders in order, the first of them for the parameter `index`. -/
def numbered (s : Settings) (d : Dialect) (index count : Nat) : List String :=
  (List.range' index count).map (s.placeholder d)

end Fragment

end SqlExpr
