import Rowgate.Proofs.Sql.Bound
import Rowgate.Proofs.Sql.Counterpart

/-!
# The statements of a fetch and their parameters

A fetch puts one statement to the database for the page, and one for the count if the query asks for it.
Both are made around the same condition. What the condition binds comes first in the page and is all there
is in the count; the limits of the page come behind it. So the parameters of both statements can be read
off the filter and the limits (`fetch_binds`), and the count does not look at the order and the limits of
the query at all.

A table without columns has no page: there is no first column to order the rows by. And a table without a
name cannot be spelled.
-/

namespace Rowgate.Sql

open Outcome

/-! ## Pieces of the statements -/

/-- The condition of a statement, with the word before it. -/
def whereText (t : Table) : Option Clause → String
  | none => ""
  | some c => " \nWHERE " ++ Dialect.sqlite.text .fresh (c.settle.pieces .sqlite t)

/-- The choice of all columns, spelled in some way, of the rows that satisfy a condition. -/
def choiceText (t : Table) (spelled : Column → String) (condition : Option Clause) : String :=
  choiceWords spelled t.columns ++ " \nFROM " ++ t.path .sqlite ++ whereText t condition

/-- What a condition binds. -/
def conditionBindings (t : Table) (condition : Option Clause) : List Binding :=
  condition.elim [] (Clause.bindings t)

/-- What the limits of a page bind. -/
def limitBindings (skip take : Nat) : List Binding :=
  if skip = 0 ∧ take = 0 then []
  else [⟨"\n LIMIT ", .int (if take = 0 then -1 else take)⟩, ⟨" OFFSET ", .int skip⟩]

def limitText (skip take : Nat) : String :=
  if skip = 0 ∧ take = 0 then "" else "\n LIMIT ? OFFSET ?"

variable {t : Table} {spelled : Column → String}

theorem Clause.bindings_settle (c : Clause) : c.settle.bindings t = c.bindings t := by
  cases c <;> rfl

theorem carries_wherePieces (t : Table) (condition : Option Clause) :
    Carries (wherePieces .sqlite t " \n" condition) (conditionBindings t condition) := by
  cases condition with
  | none => exact .nil
  | some c =>
      rw [wherePieces, conditionBindings, Option.elim_some, ← Clause.bindings_settle]
      exact (Clause.carries_pieces t c.settle).cons_words rfl

theorem carries_selectPieces (h : ∀ c, Quiet (spelled c)) (columns : List Column)
    (condition : Option Clause) :
    Carries (selectPieces .sqlite t spelled columns condition) (conditionBindings t condition) := by
  refine (carries_wherePieces t condition).cons_words ?_
  exact ((quiet_choiceWords h columns).append (t := " \nFROM ") rfl).append (quiet_path .sqlite t)

theorem carries_limitPieces (skip take : Nat) :
    Carries (limitPieces .sqlite skip take) (limitBindings skip take) := by
  rw [limitPieces, limitBindings]
  split
  · exact .nil
  · have hlimit : ∀ w ∈ ["\n LIMIT "], Quiet w := List.forall_mem_singleton.mpr rfl
    have hoffset : ∀ w ∈ [" OFFSET "], Quiet w := List.forall_mem_singleton.mpr rfl
    exact (Carries.slot hlimit plainStem _).append (Carries.slot hoffset plainStem _)

theorem text_selectPieces (n : Naming) (condition : Option Clause) :
    Dialect.sqlite.text n (selectPieces .sqlite t spelled t.columns condition) =
      choiceText t spelled condition := by
  rw [selectPieces, Dialect.text, choiceText]
  refine congrArg (choiceWords spelled t.columns ++ " \nFROM " ++ t.path .sqlite ++ ·) ?_
  cases condition with
  | none => rfl
  | some c =>
      rw [wherePieces, Dialect.text, whereText,
        (Clause.carries_pieces t c.settle).steady n .fresh]
      rfl

theorem text_limitPieces (n : Naming) (skip take : Nat) :
    Dialect.sqlite.text n (limitPieces .sqlite skip take) = limitText skip take := by
  rw [limitPieces, limitText]
  split <;> rfl

/-! ## The two statements -/

theorem carries_pagePieces (p : PageSelection) :
    Carries (pagePieces .sqlite t p)
      (conditionBindings t p.condition ++ limitBindings p.skip p.take) := by
  have hrows := carries_selectPieces (t := t) (quiet_columnPath .sqlite t) t.columns p.condition
  have horder : Quiet (" ORDER BY " ++ orderText .sqlite t p.first p.order) :=
    .append rfl (quiet_orderText p.first p.order)
  exact (hrows.concat_words horder).append (carries_limitPieces p.skip p.take)

theorem text_pagePieces (p : PageSelection) :
    Dialect.sqlite.text .fresh (pagePieces .sqlite t p) =
      choiceText t (t.columnPath .sqlite) p.condition ++
        (" ORDER BY " ++ orderText .sqlite t p.first p.order) ++ limitText p.skip p.take := by
  have horder : Carries [.words (" ORDER BY " ++ orderText .sqlite t p.first p.order)] [] :=
    .words (.append rfl (quiet_orderText p.first p.order))
  rw [pagePieces, (carries_limitPieces p.skip p.take).text_append, horder.text_append, rowPieces,
    text_selectPieces, text_limitPieces, Dialect.text, Dialect.text, String.append_empty]

/-- What a count says before the choice of which it counts the rows. -/
def countWords : String := "SELECT count(*) AS count_1 \nFROM ("

theorem text_countPieces (condition : Option Clause) :
    Dialect.sqlite.text .fresh (countPieces .sqlite t condition) =
      countWords ++ (choiceText t (namedColumn .sqlite t) condition ++ ") AS sel") := by
  have hend : Carries [.words ") AS sel"] [] := .words rfl
  have htext : ∀ n, Dialect.sqlite.text n
      (selectPieces .sqlite t (namedColumn .sqlite t) t.columns condition ++ [.words ") AS sel"]) =
        choiceText t (namedColumn .sqlite t) condition ++ ") AS sel" := by
    intro n
    rw [hend.text_append, text_selectPieces]
    rfl
  rw [countPieces, List.append_assoc, List.cons_append, List.cons_append, List.cons_append,
    Dialect.text, Dialect.text, Dialect.text, List.nil_append, htext]
  simp only [countWords, ← String.append_assoc]
  rfl

theorem binds_page (p : PageSelection) :
    (Statement.fragment .sqlite ⟨t, .page p⟩).Binds
      (conditionBindings t p.condition ++ limitBindings p.skip p.take) :=
  (carries_pagePieces p).binds

theorem binds_count (condition : Option Clause) :
    (Statement.fragment .sqlite ⟨t, .count condition⟩).Binds (conditionBindings t condition) := by
  have hrows := carries_selectPieces (t := t) (quiet_namedColumn .sqlite t) t.columns condition
  have hend : Carries [.words ") AS sel"] [] := .words rfl
  have hcarries := hrows.append hend
  rw [List.append_nil] at hcarries
  constructor
  · exact hcarries.values
  · have hfollow := hcarries.follow (s := countWords) rfl .fresh
    rw [hend.text_append, text_selectPieces] at hfollow
    show Follow (leads (Dialect.sqlite.text .fresh (countPieces .sqlite t condition))) _
    rw [text_countPieces]
    exact hfollow

/-! ## From a query -/

/-- The columns to order by: those of the keys of an order that the table has. -/
def knownOrder (t : Table) (ks : List SortKey) : Order :=
  ks.filterMap fun k => (t.column? k.field).map fun c => (c, k.direction)

theorem result_orderOf (t : Table) (ks : List SortKey) :
    (TableService.orderOf t ks).result = .ok (knownOrder t ks) := by
  induction ks with
  | nil => rfl
  | cons k ks ih =>
      rw [TableService.orderOf, knownOrder, List.filterMap_cons]
      cases t.column? k.field with
      | none =>
          dsimp only
          rw [Traced.result_bind, Traced.result_note]
          exact ih
      | some c =>
          dsimp only
          rw [Traced.result_bind, ih]
          rfl

namespace TableService

/-- The statements of a fetch as they are shown: of the page, and of the count if it is asked for. -/
def fetchFragments (s : TableService) (d : Dialect) (q : Query) :
    Except Fault (Fragment × Option Fragment) := do
  let p ← (s.pageOf q).result
  let page ← Statement.compose d ⟨s.table, .page p⟩
  if q.withCount then
    let count ← Statement.compose d ⟨s.table, .count p.condition⟩
    .ok (page, some count)
  else .ok (page, none)

variable {s : TableService} {q : Query} {condition : Option Clause} {first : Column}
  {columns : List Column}

theorem result_pageOf (hq : s.conditionOf q = .ok condition) :
    (s.pageOf q).result =
      match s.table.columns with
      | [] => .error .noColumns
      | first :: _ => .ok ⟨condition, first, knownOrder s.table q.sort, q.skip, q.take⟩ := by
  rw [pageOf, Traced.result_bind, Traced.result_ofResult, hq]
  show ((orderOf s.table q.sort) >>= _).result = _
  rw [Traced.result_bind, result_orderOf]
  show Traced.result (match s.table.columns with | [] => _ | _ :: _ => _) = _
  cases s.table.columns <;> rfl

/-- A statement that sets no column of a table with a name can be shown. -/
theorem compose_of_columns {d : Dialect} {t : Table} {c : Command} (hname : t.name ≠ "")
    (h : Piece.columns (Statement.pieces d ⟨t, c⟩) = []) :
    Statement.compose d ⟨t, c⟩ = .ok (Statement.fragment d ⟨t, c⟩) := by
  have hcompile := compile_of_named (d := d) hname c
  rw [Piece.fault?_of_columns h] at hcompile
  rw [Statement.compile] at hcompile
  rw [Statement.compose, Table.compose, hcompile, Piece.disguised_of_columns h]
  rfl

theorem columns_page (d : Dialect) (t : Table) (p : PageSelection) :
    Piece.columns (Statement.pieces d ⟨t, .page p⟩) = [] := by
  have hrows : Piece.columns (rowPieces d t p.condition) = [] := columns_wherePieces _ _
  have hlimit : Piece.columns (limitPieces d p.skip p.take) = [] := by
    rw [limitPieces.eq_def]
    split
    · rfl
    · cases d with
      | sqlite => rfl
      | standard =>
          dsimp only
          rw [Piece.columns_append]
          split <;> split <;> rfl
  show Piece.columns (rowPieces d t p.condition ++ _ ++ limitPieces d p.skip p.take) = []
  rw [Piece.columns_append, Piece.columns_append, hrows, hlimit]
  rfl

theorem columns_count (d : Dialect) (t : Table) (condition : Option Clause) :
    Piece.columns (Statement.pieces d ⟨t, .count condition⟩) = [] := by
  have hrows : Piece.columns (selectPieces d t (namedColumn d t) t.columns condition) = [] :=
    columns_wherePieces _ _
  show Piece.columns (_ ++ selectPieces d t (namedColumn d t) t.columns condition ++ _) = []
  rw [Piece.columns_append, Piece.columns_append, hrows]
  rfl

theorem fetchFragments_eq {d : Dialect} (hq : s.conditionOf q = .ok condition)
    (hname : s.table.name ≠ "") (hcolumns : s.table.columns = first :: columns) :
    s.fetchFragments d q = .ok (
      Statement.fragment d
        ⟨s.table, .page ⟨condition, first, knownOrder s.table q.sort, q.skip, q.take⟩⟩,
      if q.withCount then some (Statement.fragment d ⟨s.table, .count condition⟩) else none) := by
  rw [fetchFragments, result_pageOf hq, hcolumns]
  show (Statement.compose d _ >>= _) = _
  rw [compose_of_columns hname (columns_page d s.table _)]
  show (if q.withCount then _ else _) = _
  cases q.withCount with
  | true =>
      rw [if_pos rfl, if_pos rfl]
      show (Statement.compose d ⟨s.table, .count condition⟩ >>= _) = _
      rw [compose_of_columns hname (columns_count d s.table condition)]
      rfl
  | false => rfl

/-- A table without columns has no page, whatever is asked for. -/
theorem fetchFragments_of_no_columns (d : Dialect) (hq : s.conditionOf q = .ok condition)
    (hcolumns : s.table.columns = []) : s.fetchFragments d q = .error .noColumns := by
  rw [fetchFragments, result_pageOf hq, hcolumns]
  rfl

/-- A table without a name cannot be spelled. -/
theorem fetchFragments_of_no_name (d : Dialect) (hq : s.conditionOf q = .ok condition)
    (hcolumns : s.table.columns = first :: columns) (hname : s.table.name = "") :
    s.fetchFragments d q = .error .unnamedTable := by
  have hcompose : ∀ p, Statement.compose d ⟨s.table, .page p⟩ = .error .unnamedTable := by
    intro p
    rw [Statement.compose, Table.compose, Table.compile, hname]
    rfl
  rw [fetchFragments, result_pageOf hq, hcolumns]
  show (Statement.compose d _ >>= _) = _
  rw [hcompose]
  rfl

/-- What a query binds for its filter. -/
def bindings (s : TableService) (filter : Option Filter) : List Binding :=
  (filter.elim [] Filter.boundTests).flatMap (Test.bindings s.scope)

theorem conditionBindings_eq {schema : Option String} {operators : List Operator} {e : Entity}
    (hs : TableService.ofEntity schema operators e = .ok s) {filter : Option Filter}
    (h : Clause.ofFilterIfAny s.scope filter = .ok condition) :
    conditionBindings s.table condition = s.bindings filter := by
  obtain ⟨table, htable, rfl⟩ := map_eq_ok hs
  cases filter with
  | none =>
      cases h
      rfl
  | some f =>
      obtain ⟨c, hc, rfl⟩ := map_eq_ok h
      exact (bindings_ofFilter (s := scope ⟨e, table, operators⟩) htable rfl f hc).1

/-- Goods with a text in their name, or of a price, where one group is false whatever the row. -/
def pricedGoods : Filter := .group .any [
  some (.leaf (.of "Name" .contains (.str "oil_") true)), none,
  some (.group .all [
    some (.leaf (.of "Price" .gt (.int 2) false)), some (.leaf (.of "Name" .eq .null false))]),
  some (.group .all [
    some (.leaf (.of "Price" .lt (.int 9) false)), some (.leaf (.of "Name" .isNotNull .null false))])]

/-- The third page of the goods, with the number of all of them. -/
def thirdPage : Query := ⟨10, 20, [⟨"Price", .descending⟩], some pricedGoods, .null, true⟩

end TableService

end Rowgate.Sql
