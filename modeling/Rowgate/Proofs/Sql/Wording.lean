import Rowgate.Proofs.Sql.Condition
import Rowgate.Sql.Service

/-!
# Values stay out of the text

A client chooses the values that a filter compares with, and none of them may reach the text of a
statement. So two runs are compared: if two filters differ in their values only, and are null at the
same places, the texts are the same and have the same number of slots.

Each stage is put beside the same stage with its values taken out. The text, the names of the slots
and the faults of pieces do not look into the slots (`compose_emptied`). The pieces of a clause
depend on the clause without its values (`pieces_emptied`), and so does its normal form
(`emptied_combine`). What is left is a single test, where a value does decide something: null
becomes a constant, and a truth value would be spelled as a digit. The form of the field rules truth
values out, and null is where both filters have it.
-/

namespace Rowgate

namespace Sql

/-! ## Pieces -/

/-- What a fragment shows without the values: its text and how many parameters it has. -/
def Fragment.wording (f : Fragment) : String × Nat := (f.sql, f.parameters.length)

namespace Piece

/-- A piece with nothing in its slot. -/
def emptied : Piece → Piece
  | .slot stem _ => .slot stem .null
  | .assigned column _ => .assigned column .null
  | p => p

theorem text_emptied (d : Dialect) (n : Naming) (ps : List Piece) :
    d.text n (ps.map emptied) = d.text n ps := by
  induction ps generalizing n with
  | nil => rfl
  | cons p ps ih => cases p <;> simp only [List.map, emptied, Dialect.text, ih]

theorem length_values_emptied (ps : List Piece) :
    (values (ps.map emptied)).length = (values ps).length := by
  induction ps with
  | nil => rfl
  | cons p ps ih => cases p <;> simp only [List.map, emptied, values, List.length_cons, ih]

theorem columns_emptied (ps : List Piece) : columns (ps.map emptied) = columns ps := by
  induction ps with
  | nil => rfl
  | cons p ps ih => cases p <;> simp only [List.map, emptied, columns, ih]

theorem slotNames_emptied (n : Naming) (ps : List Piece) :
    slotNames n (ps.map emptied) = slotNames n ps := by
  induction ps generalizing n with
  | nil => rfl
  | cons p ps ih => cases p <;> simp only [List.map, emptied, slotNames, ih]

theorem disguised_emptied (ps : List Piece) : disguised (ps.map emptied) = disguised ps := by
  rw [disguised, disguised, columns_emptied]

theorem fault?_emptied (ps : List Piece) : fault? (ps.map emptied) = fault? ps := by
  have hambiguous : areAmbiguous (ps.map emptied) = areAmbiguous ps := by
    rw [areAmbiguous, areAmbiguous, slotNames_emptied, columns_emptied]
  rw [fault?, fault?, hambiguous, disguised_emptied]

theorem wording_render (d : Dialect) (ps : List Piece) :
    (d.render (ps.map emptied)).wording = (d.render ps).wording := by
  simp only [Fragment.wording, Dialect.render, text_emptied, length_values_emptied]

end Piece

/-- The wording of what can be put to a database does not depend on what is in the slots. -/
theorem compile_emptied (t : Table) (namesTable : Bool) (d : Dialect) (ps : List Piece) :
    (t.compile namesTable d (ps.map Piece.emptied)).map Fragment.wording =
      (t.compile namesTable d ps).map Fragment.wording := by
  simp only [Table.compile, Piece.fault?_emptied]
  split
  · rfl
  · split
    · rfl
    · exact congrArg Except.ok (Piece.wording_render d ps)

/-- Whether a fragment can be shown is not a matter of what is in the slots. -/
theorem wording_compose (t : Table) (namesTable : Bool) (d : Dialect) (ps : List Piece) :
    (t.compose namesTable d ps).map Fragment.wording =
      ((t.compile namesTable d ps).map Fragment.wording).bind fun wording =>
        if (Piece.disguised ps).isEmpty then .ok wording else .error .missedMark := by
  rw [Table.compose]
  cases t.compile namesTable d ps with
  | error f => rfl
  | ok fragment =>
      show Except.map _ (if _ then _ else _) = if _ then _ else _
      split <;> rfl

theorem compose_emptied (t : Table) (namesTable : Bool) (d : Dialect) (ps : List Piece) :
    (t.compose namesTable d (ps.map Piece.emptied)).map Fragment.wording =
      (t.compose namesTable d ps).map Fragment.wording := by
  rw [wording_compose, wording_compose, compile_emptied, Piece.disguised_emptied]

/-- Pieces that differ in their slots only have the same wording. -/
theorem compose_congr {ps qs : List Piece} (h : ps.map Piece.emptied = qs.map Piece.emptied)
    (t : Table) (namesTable : Bool) (d : Dialect) :
    (t.compose namesTable d ps).map Fragment.wording =
      (t.compose namesTable d qs).map Fragment.wording := by
  rw [← compose_emptied, h, compose_emptied]

/-! ## Clauses -/

namespace Clause

/-- A value that is compared: only a truth value is spelled in the text. -/
def hidden : Value → Value
  | .bool b => .bool b
  | _ => .null

mutual

/-- A clause without its values. -/
def emptied : Clause → Clause
  | .compare c r fold v => .compare c r fold (hidden v)
  | .like c negated fold _ => .like c negated fold ""
  | .group logic cs => .group logic (allEmptied cs)
  | c => c

/-- Clauses without their values. -/
def allEmptied : List Clause → List Clause
  | [] => []
  | c :: cs => emptied c :: allEmptied cs

end

theorem allEmptied_eq_map (cs : List Clause) : allEmptied cs = cs.map emptied := by
  induction cs with
  | nil => rfl
  | cons c cs ih => rw [allEmptied, ih, List.map_cons]

theorem isTruth_emptied (b : Bool) (c : Clause) : isTruth b c.emptied = isTruth b c := by
  cases c <;> rfl

theorem isEnclosed_emptied (logic : Logic) (c : Clause) :
    isEnclosed logic c.emptied = isEnclosed logic c := by
  match c with
  | .truth _ | .settled _ | .compare .. | .like .. | .missing .. | .empty .. => rfl
  | .group .all _ | .group .any _ => rfl

theorem splice_emptied (logic : Logic) (c : Clause) :
    splice logic c.emptied = (splice logic c).map emptied := by
  match c with
  | .truth _ | .settled _ | .compare .. | .like .. | .missing .. | .empty .. => rfl
  | .group l cs =>
      rw [emptied, splice, splice]
      split
      · exact allEmptied_eq_map cs
      · rw [List.map_singleton, emptied]

theorem gather_emptied (logic : Logic) (cs : List Clause) :
    gather logic (cs.map emptied) = (gather logic cs).emptied := by
  match cs with
  | [] => rfl
  | [c] => rfl
  | c :: c' :: cs =>
      have hsplice : ((c :: c' :: cs).map emptied).flatMap (splice logic) =
          ((c :: c' :: cs).flatMap (splice logic)).map emptied := by
        rw [List.flatMap_map, List.map_flatMap]
        exact List.flatMap_congr fun c _ => splice_emptied logic c
      show Clause.group logic _ = Clause.group logic _
      rw [allEmptied_eq_map, ← hsplice]
      rfl

/-- The normal form of a group of clauses does not depend on the values in them. -/
theorem emptied_combine (logic : Logic) (cs : List Clause) :
    (combine logic cs).emptied = combine logic (cs.map emptied) := by
  have hany : (cs.map emptied).any (isTruth !neutral logic) = cs.any (isTruth !neutral logic) := by
    rw [List.any_map]
    exact congrArg cs.any (funext (isTruth_emptied _))
  have hfilter : (cs.map emptied).filter (fun c => !isTruth (neutral logic) c) =
      (cs.filter fun c => !isTruth (neutral logic) c).map emptied := by
    rw [List.filter_map]
    congr 2
    funext c
    exact congrArg not (isTruth_emptied _ c)
  rw [combine, combine, List.isEmpty_map, hany, hfilter, gather_emptied]
  split
  · rfl
  · split <;> rfl

theorem settle_emptied (c : Clause) : c.emptied.settle = c.settle.emptied := by
  cases c <;> rfl

mutual

theorem namesColumn_emptied (c : Clause) : c.emptied.namesColumn = c.namesColumn := by
  match c with
  | .truth _ | .settled _ | .compare .. | .like .. | .missing .. | .empty .. => rfl
  | .group logic cs =>
      rw [emptied, namesColumn, namesColumn]
      exact anyNamesColumn_emptied cs

theorem anyNamesColumn_emptied (cs : List Clause) :
    anyNamesColumn (allEmptied cs) = anyNamesColumn cs := by
  match cs with
  | [] => rfl
  | c :: cs =>
      rw [allEmptied, anyNamesColumn, anyNamesColumn, namesColumn_emptied c,
        anyNamesColumn_emptied cs]

end

theorem comparand_emptied (stem : String) (v : Value) :
    (comparand stem (hidden v)).emptied = (comparand stem v).emptied := by
  cases v <;> rfl

theorem enclose_emptied (b : Bool) (ps : List Piece) :
    (enclose b ps).map Piece.emptied = enclose b (ps.map Piece.emptied) := by
  cases b with
  | false => rfl
  | true =>
      simp only [enclose, if_true, List.map_cons, List.map_append, List.map_nil, Piece.emptied]

mutual

/-- Apart from what is in their slots, the pieces of a clause depend on the clause without its
values. -/
theorem pieces_emptied (d : Dialect) (t : Table) (c : Clause) :
    (pieces d t c.emptied).map Piece.emptied = (pieces d t c).map Piece.emptied := by
  match c with
  | .truth _ | .settled _ | .missing .. | .empty .. => rfl
  | .compare c r fold v =>
      rw [emptied, pieces, pieces]
      cases fold <;>
        simp [comparePieces, inSmallLetters, comparand_emptied]
  | .like c negated fold pattern =>
      rw [emptied, pieces, pieces]
      cases fold <;> rfl
  | .group logic cs =>
      rw [emptied, pieces, pieces]
      exact memberPieces_emptied d t logic true cs

theorem memberPieces_emptied (d : Dialect) (t : Table) (logic : Logic) (first : Bool)
    (cs : List Clause) :
    (memberPieces d t logic first (allEmptied cs)).map Piece.emptied =
      (memberPieces d t logic first cs).map Piece.emptied := by
  match cs with
  | [] => rfl
  | c :: cs =>
      rw [allEmptied, memberPieces, memberPieces, isEnclosed_emptied]
      simp only [List.map_append, enclose_emptied]
      rw [pieces_emptied d t c, memberPieces_emptied d t logic false cs]

end

end Clause

end Sql

/-! ## Filters that differ in their values -/

/-- Two tests that differ in their values only, of which both are null or neither is. -/
structure Test.Alike (t u : Test) : Prop where
  field : t.field = u.field
  operator : t.operator = u.operator
  ignoreCase : t.ignoreCase = u.ignoreCase
  isNull : t.value.isNull = u.value.isNull

namespace Filter

mutual

/-- Whether two filters have the same shape and differ in the values of their tests only. -/
def Alike : Filter → Filter → Prop
  | .node t logic ms, .node u logic' ns =>
    if ms.isEmpty then ns.isEmpty = true ∧ t.Alike u
    else logic = logic' ∧ MembersAlike ms ns

/-- Whether the members of two groups have the same shapes, the missing ones at the same places. -/
def MembersAlike : List (Option Filter) → List (Option Filter) → Prop
  | [], ns => ns.isEmpty = true
  | none :: ms, ns =>
    match ns with
    | none :: ns => MembersAlike ms ns
    | _ => False
  | some f :: ms, ns =>
    match ns with
    | some g :: ns => Alike f g ∧ MembersAlike ms ns
    | _ => False

end

theorem isEmpty_of_membersAlike {ms ns : List (Option Filter)} (h : MembersAlike ms ns) :
    ms.isEmpty = ns.isEmpty := by
  match ms, ns with
  | [], _ => exact (Eq.symm h)
  | none :: _, none :: _ => rfl
  | some _ :: _, some _ :: _ => rfl
  | none :: _, [] | some _ :: _, [] => cases h

end Filter

/-! ## Single tests -/

section Test

open Sql

variable {o : Operator} {c : Column} {fold : Bool} {v w : Value} {f : Field}

theorem Sql.Clause.hidden_of_fits {k : FieldKind} (h : Fits k v) : Clause.hidden v = .null := by
  cases h <;> rfl

/-- Two comparisons with values in the form of a field differ in these values only. -/
theorem emptied_comparison {rel : Relation} {cv cw : Clause} (hv : f.Holds v) (hw : f.Holds w)
    (hn : v.isNull = w.isNull) (hfold : fold = true → f.kind = .string)
    (hcv : Operator.comparison rel c fold v = .ok cv)
    (hcw : Operator.comparison rel c fold w = .ok cw) : cv.emptied = cw.emptied := by
  rcases hv with rfl | hv
  · cases Value.eq_null_of_isNull hn.symm
    cases hcv
    cases hcw
    rfl
  · replace hw := hw.resolve_left fun he => by
      rw [he, hv.not_null] at hn
      cases hn
    cases Operator.comparison_of_fits hv hfold hcv
    cases Operator.comparison_of_fits hw hfold hcw
    rw [Clause.emptied, Clause.emptied, Clause.hidden_of_fits hv, Clause.hidden_of_fits hw]

/-- Two searches for a text differ in the texts only. -/
theorem emptied_search {cv cw : Clause} (hv : v = .null ∨ ∃ s, v = .str s)
    (hw : w = .null ∨ ∃ s, w = .str s) (hn : v.isNull = w.isNull)
    (hcv : o.search c fold v = .ok cv) (hcw : o.search c fold w = .ok cw) :
    cv.emptied = cw.emptied := by
  rcases hv with rfl | ⟨s, rfl⟩ <;> rcases hw with rfl | ⟨s', rfl⟩
  · cases hcv
    cases hcw
    rfl
  · cases hn
  · cases hn
  · cases hcv
    cases hcw
    rfl

/-- Two tests that differ in their values only have clauses that do. -/
theorem emptied_of_tests {s : ClauseScope} {schema : Option String} {e : Entity}
    (ht : Table.ofEntity schema e = .ok s.table) (hf : s.fields = e.fields) {t u : Test}
    (h : t.Alike u) {ct cu : Clause} (hct : Clause.ofTest s t = .ok ct)
    (hcu : Clause.ofTest s u = .ok cu) : ct.emptied = cu.emptied := by
  obtain ⟨o, c, v, ho, hcol, hv, hct⟩ := ofTest_eq_ok hct
  obtain ⟨o', c', w, ho', hcol', hw, hcu⟩ := ofTest_eq_ok hcu
  have hname : u.fieldName = t.fieldName := by rw [Test.fieldName, Test.fieldName, h.field]
  have hfolds : ∀ field, u.folds field = t.folds field := fun field => by
    rw [Test.folds, Test.folds, h.ignoreCase]
  rw [hname] at hcol' hw hcu
  rw [hfolds] at hcu
  cases ho.symm.trans (h.operator.trans ho')
  cases hcol.symm.trans hcol'
  obtain ⟨_, f, hfield, _, _⟩ := exists_field_of_column ht hcol
  rw [hf, hfield] at hv hw hct hcu
  have hnull : o.isValueless = false → v.isNull = w.isNull := fun hvalue => by
    rw [Test.isNull_condition ho hvalue hv, Test.isNull_condition ho' hvalue hw, h.isNull]
  cases hrel : o.relation? with
  | some rel =>
      rw [Operator.clause_of_relation hrel] at hct hcu
      exact emptied_comparison (Test.condition_holds ho hrel hv)
        (Test.condition_holds ho' hrel hw) (hnull (by cases o <;> first | rfl | cases hrel))
        Test.kind_of_folds hct hcu
  | none =>
      by_cases hsearch : o.isSearch = true
      · rw [Operator.clause_of_search hsearch] at hct hcu
        exact emptied_search (Test.condition_of_search ho hsearch hv)
          (Test.condition_of_search ho' hsearch hw)
          (hnull (by cases o <;> first | rfl | cases hsearch)) hct hcu
      · rw [Operator.clause_of_question hrel (by simpa using hsearch) c _ v w, hcu] at hct
        cases hct
        rfl

end Test

/-! ## Whole filters -/

section Filter

open Sql

variable {s : ClauseScope} {schema : Option String} {e : Entity}

mutual

theorem emptied_of_filters (ht : Table.ofEntity schema e = .ok s.table) (hf : s.fields = e.fields)
    (f g : Filter) (h : f.Alike g) {cf cg : Clause} (hcf : Clause.ofFilter s f = .ok cf)
    (hcg : Clause.ofFilter s g = .ok cg) : cf.emptied = cg.emptied := by
  match f, g with
  | .node t logic ms, .node u logic' ns =>
      rw [Filter.Alike] at h
      rw [Clause.ofFilter] at hcf hcg
      by_cases hms : ms.isEmpty = true
      · rw [if_pos hms] at h hcf
        rw [if_pos h.1] at hcg
        exact emptied_of_tests ht hf h.2 hcf hcg
      · rw [if_neg hms] at h hcf
        rw [Filter.isEmpty_of_membersAlike h.2] at hms
        rw [if_neg hms] at hcg
        cases hcms : Clause.ofMembers s ms with
        | error fault => rw [hcms] at hcf; cases hcf
        | ok cms =>
            cases hcns : Clause.ofMembers s ns with
            | error fault => rw [hcns] at hcg; cases hcg
            | ok cns =>
                rw [hcms] at hcf
                rw [hcns] at hcg
                cases hcf
                cases hcg
                rw [Clause.emptied_combine, Clause.emptied_combine, h.1,
                  emptied_of_members ht hf ms ns h.2 hcms hcns]

theorem emptied_of_members (ht : Table.ofEntity schema e = .ok s.table) (hf : s.fields = e.fields)
    (ms ns : List (Option Filter)) (h : Filter.MembersAlike ms ns) {cms cns : List Clause}
    (hcms : Clause.ofMembers s ms = .ok cms) (hcns : Clause.ofMembers s ns = .ok cns) :
    cms.map Clause.emptied = cns.map Clause.emptied := by
  match ms, ns with
  | [], [] =>
      cases hcms
      cases hcns
      rfl
  | [], _ :: _ => cases h
  | none :: ms, none :: ns =>
      rw [Clause.ofMembers] at hcms hcns
      exact emptied_of_members ht hf ms ns h hcms hcns
  | some f :: ms, some g :: ns =>
      obtain ⟨hfg, hrest⟩ := h
      obtain ⟨cf, cfs, hcf, hcfs, rfl⟩ := ofMembers_some hcms
      obtain ⟨cg, cgs, hcg, hcgs, rfl⟩ := ofMembers_some hcns
      rw [List.map_cons, List.map_cons, emptied_of_filters ht hf f g hfg hcf hcg,
        emptied_of_members ht hf ms ns hrest hcfs hcgs]

end

end Filter

/-! ## Statements -/

section Statement

open Sql

variable {s : TableService} {schema : Option String} {operators : List Operator} {e : Entity}

theorem wherePieces_congr {c c' : Option Clause} (h : c.map Clause.emptied = c'.map Clause.emptied)
    (d : Dialect) (t : Table) (lead : String) :
    (wherePieces d t lead c).map Piece.emptied = (wherePieces d t lead c').map Piece.emptied := by
  match c, c' with
  | none, none => rfl
  | none, some _ | some _, none => cases h
  | some c, some c' =>
      rw [wherePieces, wherePieces, List.map_cons, List.map_cons, ← Clause.pieces_emptied,
        ← Clause.pieces_emptied d t c'.settle, ← Clause.settle_emptied, ← Clause.settle_emptied,
        Option.some.inj h]

theorem pagePieces_congr {c c' : Option Clause} (h : c.map Clause.emptied = c'.map Clause.emptied)
    (d : Dialect) (t : Table) (first : Column) (order : Order) (skip take : Nat) :
    (pagePieces d t ⟨c, first, order, skip, take⟩).map Piece.emptied =
      (pagePieces d t ⟨c', first, order, skip, take⟩).map Piece.emptied := by
  simp only [pagePieces, rowPieces, selectPieces, List.map_append, List.map_cons,
    wherePieces_congr h]

theorem countPieces_congr {c c' : Option Clause} (h : c.map Clause.emptied = c'.map Clause.emptied)
    (d : Dialect) (t : Table) :
    (countPieces d t c).map Piece.emptied = (countPieces d t c').map Piece.emptied := by
  simp only [countPieces, selectPieces, List.map_append, List.map_cons, wherePieces_congr h]

/-- The wording of a clause over a table. -/
def Sql.Clause.wording (d : Dialect) (t : Table) (c : Clause) : Except Fault (String × Nat) :=
  (c.compose d t).map Fragment.wording

/-- The wording of the statement for a command on a table. -/
def Sql.TableService.wording (s : TableService) (d : Dialect) (command : Command) :
    Except Fault (String × Nat) :=
  (Statement.compose d ⟨s.table, command⟩).map Fragment.wording

/-- The wordings of the statements that answer a query: of the page, and of the count if it is asked
for. -/
def Sql.TableService.fetchWordings (s : TableService) (d : Dialect) (q : Query) :
    Except Fault (List (String × Nat)) := do
  let p ← (s.pageOf q).result
  let page ← s.wording d (.page p)
  if q.withCount then
    let count ← s.wording d (.count p.condition)
    .ok [page, count]
  else .ok [page]

/-- The page of a query without a search. -/
theorem pageOf_of_filter {q : Query} (hq : q.search = .null) {c : Option Clause}
    (hc : Clause.ofFilterIfAny s.scope q.filter = .ok c) :
    (s.pageOf q).result =
      (TableService.orderOf s.table q.sort).result.bind fun order =>
        match s.table.columns with
        | [] => .error .noColumns
        | first :: _ => .ok ⟨c, first, order, q.skip, q.take⟩ := by
  have hcondition : s.conditionOf q = .ok c := by
    rw [TableService.conditionOf, Query.condition, Query.combine, hq, ← hc]
    cases q.filter <;> rfl
  rw [TableService.pageOf, Traced.result_bind, Traced.result_ofResult, hcondition]
  show ((TableService.orderOf s.table q.sort) >>= _).result = _
  rw [Traced.result_bind]
  congr 1
  funext order
  cases s.table.columns <;> rfl

/-- No value of a filter has a part in the text of a statement. If two filters that become clauses
differ in the values of their tests only, and are null at the same places, then the clauses read the
same, and so do the statements for the page and for the count of a query with either filter. -/
theorem wordings_alike (hs : TableService.ofEntity schema operators e = .ok s)
    {f g : Option Filter} (h : Option.Rel Filter.Alike f g) {cf cg : Option Clause}
    (hf : Clause.ofFilterIfAny s.scope f = .ok cf) (hg : Clause.ofFilterIfAny s.scope g = .ok cg)
    (d : Dialect) (q : Query) (hq : q.search = .null) :
    cf.map (Clause.wording d s.table) = cg.map (Clause.wording d s.table) ∧
      s.fetchWordings d { q with filter := f } = s.fetchWordings d { q with filter := g } := by
  obtain ⟨table, ht, rfl⟩ := map_eq_ok hs
  have hemptied : cf.map Clause.emptied = cg.map Clause.emptied := by
    cases h with
    | none =>
        cases hf
        cases hg
        rfl
    | some h =>
        obtain ⟨c, hc, rfl⟩ := map_eq_ok hf
        obtain ⟨c', hc', rfl⟩ := map_eq_ok hg
        rw [Option.map_some, Option.map_some, emptied_of_filters ht rfl _ _ h hc hc']
  refine ⟨?_, ?_⟩
  · match cf, cg, hemptied with
    | none, none, _ => rfl
    | some c, some c', hcc =>
        replace hcc : c.emptied = c'.emptied := Option.some.inj hcc
        rw [Option.map_some, Option.map_some, Clause.wording, Clause.wording, Clause.compose,
          Clause.compose, ← Clause.namesColumn_emptied c, hcc, Clause.namesColumn_emptied]
        refine congrArg some (compose_congr ?_ _ _ _)
        rw [← Clause.pieces_emptied, hcc, Clause.pieces_emptied]
  · rw [TableService.fetchWordings, TableService.fetchWordings,
      pageOf_of_filter (q := { q with filter := f }) hq hf,
      pageOf_of_filter (q := { q with filter := g }) hq hg]
    cases (TableService.orderOf table q.sort).result with
    | error fault => rfl
    | ok order =>
        cases table.columns with
        | nil => rfl
        | cons first columns =>
            let s : TableService := ⟨e, table, operators⟩
            have hpage : s.wording d (.page ⟨cf, first, order, q.skip, q.take⟩) =
                s.wording d (.page ⟨cg, first, order, q.skip, q.take⟩) :=
              compose_congr (pagePieces_congr hemptied d _ _ _ _ _) _ _ _
            have hcount : s.wording d (.count cf) = s.wording d (.count cg) :=
              compose_congr (countPieces_congr hemptied d _) _ _ _
            show (s.wording d (.page ⟨cf, first, order, q.skip, q.take⟩) >>= fun page =>
                if q.withCount then s.wording d (.count cf) >>= fun count => .ok [page, count]
                else .ok [page]) = _
            rw [hpage, hcount]
            rfl

end Statement

/-! ## An example

A value that is a piece of a statement itself stays in its slot. -/

section Example

open Sql

/-- Goods of a name that cost more than a price. -/
def namedGoods (name : String) (price : Value) : Filter := .group .any [
  some (.leaf (.of "Name" .eq (.str name) true)), none,
  some (.leaf (.of "Price" .gt price false))]

/-- A page of goods with the number of all of them. -/
def goodsPage : Query := ⟨10, 20, [⟨"Price", .descending⟩], none, .null, true⟩

theorem wordings_alike_goods :
    ∃ s cf cg, TableService.ofEntity none Operator.all goods = .ok s ∧
      Option.Rel Filter.Alike (some (namedGoods "oil" (.int 2)))
        (some (namedGoods "' OR 1 = 1; --" (.str "1e3"))) ∧
      Clause.ofFilterIfAny s.scope (some (namedGoods "oil" (.int 2))) = .ok cf ∧
      Clause.ofFilterIfAny s.scope (some (namedGoods "' OR 1 = 1; --" (.str "1e3"))) = .ok cg ∧
      goodsPage.search = .null ∧
      cf.map (Clause.wording .sqlite s.table) = cg.map (Clause.wording .sqlite s.table) ∧
      s.fetchWordings .sqlite { goodsPage with filter := some (namedGoods "oil" (.int 2)) } =
        s.fetchWordings .sqlite
          { goodsPage with filter := some (namedGoods "' OR 1 = 1; --" (.str "1e3")) } :=
  have hs : TableService.ofEntity none Operator.all goods =
      .ok ⟨goods, Table.describing none goods, Operator.all⟩ := rfl
  have h : Option.Rel Filter.Alike (some (namedGoods "oil" (.int 2)))
      (some (namedGoods "' OR 1 = 1; --" (.str "1e3"))) :=
    .some ⟨rfl, ⟨rfl, ⟨rfl, rfl, rfl, rfl⟩⟩, ⟨rfl, ⟨rfl, rfl, rfl, rfl⟩⟩, rfl⟩
  have hall := wordings_alike hs h rfl rfl .sqlite goodsPage rfl
  ⟨_, _, _, hs, h, rfl, rfl, rfl, hall.1, hall.2⟩

end Example

end Rowgate
