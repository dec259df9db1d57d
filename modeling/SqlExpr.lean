import SqlExpr.Expr.Replace
import SqlExpr.Render.Walk
import SqlExpr.Semantics.Eval
import SqlExpr.Settings.Document
import SqlExpr.Proofs.Comparison.Text
import SqlExpr.Proofs.Expr.Preorder
import SqlExpr.Proofs.Lowering.Meaning
import SqlExpr.Proofs.Lowering.Writes
import SqlExpr.Proofs.Reading.Meaning
import SqlExpr.Proofs.Row.Decision
import SqlExpr.Proofs.Row.Leading
import SqlExpr.Proofs.Render.Visits
import SqlExpr.Proofs.Render.Params
import SqlExpr.Proofs.Render.Placeholders
import SqlExpr.Proofs.Row.Conformance
import SqlExpr.Proofs.Row.Update
import SqlExpr.Proofs.Overlay.Building
import SqlExpr.Proofs.Overlay.Update
import SqlExpr.Proofs.Expr.Update
import SqlExpr.Proofs.Expr.Rebuild
import SqlExpr.Proofs.Expr.Replace
import SqlExpr.Proofs.Expr.Obtainable
import SqlExpr.Proofs.Semantics.Substitution
import SqlExpr.Proofs.Render.Sinks
import SqlExpr.Proofs.Render.Nesting
import SqlExpr.Proofs.Render.Cut
import SqlExpr.Proofs.Render.Fragments
import SqlExpr.Proofs.Render.Steps
import SqlExpr.Proofs.Render.ParamStyles
import SqlExpr.Proofs.Text.Backslash
import SqlExpr.Proofs.Lexing.Lexemes
import SqlExpr.Proofs.Lexing.Writes
import SqlExpr.Proofs.Lexing.Spacing
import SqlExpr.Proofs.Lowering.Constants
import SqlExpr.Proofs.Lexing.Rendering
import SqlExpr.Proofs.Render.Support
import SqlExpr.Proofs.Render.Termination
import SqlExpr.Proofs.Expr.EqualButTypes
import SqlExpr.Proofs.Render.Types
import SqlExpr.Proofs.Row.Equality
import SqlExpr.Proofs.Row.Coherence
import SqlExpr.Proofs.Overlay.Splicing
import SqlExpr.Proofs.Row.Acceptance
import SqlExpr.Proofs.Overlay.Discipline
import SqlExpr.Proofs.Expr.Offers
import SqlExpr.Proofs.Expr.BottomUp
import SqlExpr.Proofs.Expr.PutGet
import SqlExpr.Proofs.Lowering.Types
import SqlExpr.Proofs.Row.Compared
import SqlExpr.Proofs.Overlay.DefaultLength
import SqlExpr.Proofs.Row.Nesting
import SqlExpr.Proofs.Row.Params
import SqlExpr.Proofs.Render.Reassociated
import SqlExpr.Proofs.Json.Reader
import SqlExpr.Proofs.Json.Records
import SqlExpr.Proofs.Settings.Documents
import SqlExpr.Proofs.Text.Quoting
import SqlExpr.Proofs.Expr.Families
import SqlExpr.Proofs.Expr.Paths
