import Rowgate.Query.Basic

/-!
# Outlines

An outline shows all parts of a filter, a query or a search as values, the parts without effect
included. The written forms leave those out, so outlines tell apart what the written forms do not.
-/

namespace Rowgate

mutual

/-- All parts of every node of a filter. -/
def Filter.outline : Filter → Value
  | .node t logic members => .dict [
      ("field", optionalText t.field), ("operator", Filter.operatorValue t.operator),
      ("value", t.value), ("ignore_case", .bool t.ignoreCase), ("logic", .str logic.name),
      ("filters", .list (Filter.memberOutlines members))]

/-- The outlines of the members of a node, null for a missing one. -/
def Filter.memberOutlines : List (Option Filter) → List Value
  | [] => []
  | none :: ms => .null :: memberOutlines ms
  | some f :: ms => outline f :: memberOutlines ms

end

/-- A field to order by with its direction. -/
def SortKey.outline (k : SortKey) : Value := .list [.str k.field, .str k.direction.name]

def Query.outline (q : Query) : Value := .dict [
  ("take", .int q.take), ("skip", .int q.skip), ("with_count", .bool q.withCount),
  ("smart_filter", q.search), ("sort", .list (q.sort.map SortKey.outline)),
  ("filter", (q.filter.map Filter.outline).getD .null)]

namespace Search

/-- The least number, the greatest number, the first moment and the last moment of a search, null
for those that it does not have. -/
def bounds : Search → Value × Value × Value × Value
  | .words => (.null, .null, .null, .null)
  | .number n => (.decimal n, .null, .null, .null)
  | .numbers m n => (.decimal m, .decimal n, .null, .null)
  | .moment m => (.null, .null, m.toValue, .null)
  | .moments m n => (.null, .null, m.toValue, n.toValue)

/-- The bounds of a search, and whether they are two numbers or two moments. -/
def outline (s : Search) : Value :=
  let (least, greatest, first, last) := s.bounds
  .dict [
    ("min_num", least), ("max_num", greatest), ("min_date", first), ("max_date", last),
    ("has_num_range", .bool (!greatest.isNull)), ("has_date_range", .bool (!last.isNull))]

end Search

end Rowgate
