-- SUMMARY: Overlays written with INSERT, or with substrings and concatenation.
import SqlExpr.Dialect.Support
import SqlExpr.Overlay.Basic

/-!
# Overlays by other functions

Where `OVERLAY` is missing, an overlay becomes `INSERT(source, start, length,
replacement)` or the splice

```text
CONCAT(CONCAT(SUBSTRING(source, 1, start - 1), replacement),
       SUBSTRING(source, start + length))
```

An overlay without a length replaces as many units as the replacement has.
-/

namespace SqlExpr.Overlay

/-- The function that counts the units of the spliced strings. -/
def lengthFunction (o : Overlay) : Builtin := if o.isBinary then .octetLength else .charLength

/-- The function that concatenates the spliced strings. -/
def concatFunction (o : Overlay) : Builtin := if o.isBinary then .binaryConcat else .concat

/-- The length, by default that of the replacement. -/
def effectiveLength (o : Overlay) : Expr :=
  o.length.getD (.call o.lengthFunction [o.replacement])

/-- `INSERT(source, start, length, replacement)`. -/
def alternate (o : Overlay) : Expr :=
  .call .insert [o.source, o.start, o.effectiveLength, o.replacement]

/-- What stands in front of the replaced units. -/
def head (o : Overlay) : Expr :=
  .call .substring [o.source, .literal (.int 1), o.start.sub (.literal (.int 1))]

/-- What stands behind the replaced units. -/
def tail (o : Overlay) : Expr :=
  .call .substring [o.source, o.start.add o.effectiveLength]

/-- The splice of head, replacement and tail. -/
def emulated (o : Overlay) : Expr :=
  .call o.concatFunction [.call o.concatFunction [o.head, o.replacement], o.tail]

/-- What replaces the overlay at a level of support, if anything does. -/
def rewrite (o : Overlay) : Support → Option Expr
  | .native => none
  | .alternate => some o.alternate
  | .emulated => some o.emulated

@[simp] theorem rewrite_native (o : Overlay) : o.rewrite .native = none := rfl

end SqlExpr.Overlay
