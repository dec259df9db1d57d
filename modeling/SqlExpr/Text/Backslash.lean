-- SUMMARY: Text between quotes as dialects read it that take a backslash for an escape.
import SqlExpr.Dialect.Basic

/-!
# Backslashes in text literals

Most dialects read the text of a literal as it is quoted, with a doubled quote for a quote. Some
also take a backslash for an escape, which stands for one character together with the character
behind it.
-/

namespace SqlExpr

namespace Quoted

/-- Read up to the first quote that is neither doubled nor escaped. Returns the text in front of it,
    with `unescape c` for a backslash and `c`, and what follows it; `none` if no such quote comes. -/
def scanEscaped (quote : Char) (unescape : Char → Char) :
    List Char → Option (List Char × List Char)
  | [] => none
  | [c] => if c = quote then some ([], []) else none
  | c :: d :: rest =>
    if c = '\\' then
      (scanEscaped quote unescape rest).map fun (s, rest) => (unescape d :: s, rest)
    else if c = quote then
      if d = quote then (scanEscaped quote unescape rest).map fun (s, rest) => (quote :: s, rest)
      else some ([], d :: rest)
    else (scanEscaped quote unescape (d :: rest)).map fun (s, rest) => (c :: s, rest)

end Quoted

namespace Dialect

/-- Whether a backslash in a text literal is an escape. -/
def escapesText : Dialect → Bool
  | .mysql | .mariadb | .clickhouse => true
  | _ => false

/-- Read a text literal. Returns the text and what follows the literal. What escapes stand for is
    left open. -/
def readText (unescape : Char → Char) (d : Dialect) : List Char → Option (String × List Char)
  | '\'' :: cs =>
    (if d.escapesText then Quoted.scanEscaped '\'' unescape cs else Quoted.scan '\'' cs).map
      fun (s, rest) => (String.ofList s, rest)
  | _ => none

end Dialect

end SqlExpr
