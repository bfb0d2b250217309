import Rowgate.Text.Case
import Rowgate.Text.Pieces

/-!
# Spelling of statements

A statement can be spelled in two dialects. They differ in the words they reserve, in how a
parameter is marked, and in how a page is asked for. A name that a dialect could take for something
else stands between quotes.
-/

namespace Rowgate.Sql

inductive Dialect
  | standard
  | sqlite
  deriving DecidableEq

namespace Dialect

def standardWords : List String := [
  "all", "analyse", "analyze", "and", "any", "array", "as", "asc", "asymmetric",
  "authorization", "between", "binary", "both", "case", "cast", "check", "collate", "column",
  "constraint", "create", "cross", "current_date", "current_role", "current_time",
  "current_timestamp", "current_user", "default", "deferrable", "desc", "distinct", "do",
  "else", "end", "except", "false", "for", "foreign", "freeze", "from", "full", "grant",
  "group", "having", "ilike", "in", "initially", "inner", "intersect", "into", "is", "isnull",
  "join", "leading", "left", "like", "limit", "localtime", "localtimestamp", "natural", "new",
  "not", "notnull", "null", "off", "offset", "old", "on", "only", "or", "order", "outer",
  "overlaps", "placing", "primary", "references", "right", "select", "session_user", "set",
  "similar", "some", "symmetric", "table", "then", "to", "trailing", "true", "union", "unique",
  "user", "using", "verbose", "when", "where"]

def sqliteWords : List String := [
  "add", "after", "all", "alter", "analyze", "and", "as", "asc", "attach", "autoincrement",
  "before", "begin", "between", "by", "cascade", "case", "cast", "check", "collate", "column",
  "commit", "conflict", "constraint", "create", "cross", "current_date", "current_time",
  "current_timestamp", "database", "default", "deferrable", "deferred", "delete", "desc",
  "detach", "distinct", "drop", "each", "else", "end", "escape", "except", "exclusive",
  "exists", "explain", "fail", "false", "for", "foreign", "from", "full", "glob", "group",
  "having", "if", "ignore", "immediate", "in", "index", "indexed", "initially", "inner",
  "insert", "instead", "intersect", "into", "is", "isnull", "join", "key", "left", "like",
  "limit", "match", "natural", "not", "notnull", "null", "of", "offset", "on", "or", "order",
  "outer", "plan", "pragma", "primary", "query", "raise", "references", "reindex", "rename",
  "replace", "restrict", "right", "rollback", "row", "select", "set", "table", "temp",
  "temporary", "then", "to", "transaction", "trigger", "true", "union", "unique", "update",
  "using", "vacuum", "values", "view", "virtual", "when", "where"]

def reserved : Dialect → List String
  | .standard => standardWords
  | .sqlite => sqliteWords

end Dialect

/-! ## Names -/

/-- Whether a character may stand in a name without quotes. Besides the letters and digits of ASCII
these are the two letters that ASCII letters have for a capital or small form. -/
def isNameChar (c : Char) : Bool := c.isAlphanum || c = '_' || c = '$' || c = 'ı' || c = 'ſ'

/-- Whether all characters may stand in a name without quotes; one line end may close the name. -/
def isPlainName (cs : List Char) : Bool :=
  let body := if cs.getLast? = some '\n' then cs.dropLast else cs
  !body.isEmpty && body.all isNameChar

/-- Whether a name starts with a character that a name without quotes cannot start with. -/
def startsOddly : List Char → Bool
  | [] => false
  | c :: _ => c.isDigit || c = '$'

namespace Dialect

/-- Whether a name has to stand between quotes: it is reserved, starts with a digit or a dollar
sign, holds a character that is not allowed otherwise, or has capitals. -/
def needsQuotes (d : Dialect) (name : String) : Bool :=
  let small := Text.lowercase name
  d.reserved.contains small || startsOddly name.toList || !isPlainName name.toList || small != name

/-- A name between quotes; a quote in the name is written twice. -/
def quoted (name : String) : String :=
  String.ofList ('"' :: Text.substitute (fun c => if c = '"' then ['"', '"'] else [c]) name.toList
    ++ ['"'])

/-- A name as it stands in a statement. -/
def spell (d : Dialect) (name : String) : String :=
  if d.needsQuotes name then quoted name else name

end Dialect

end Rowgate.Sql
