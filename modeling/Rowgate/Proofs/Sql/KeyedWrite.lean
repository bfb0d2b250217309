import Mathlib.Data.List.Nodup
import Rowgate.Proofs.Entity.Form
import Rowgate.Proofs.Sql.Dialogue
import Rowgate.Sql.Catalog

/-!
# Every write names one row

A table of a catalog takes writes only if it has a key and no view has its name. A row is changed or
removed by its whole key: the condition of the statement is spelled as one test after another, one for
each column of the key, and no value in it is null (`CatalogTable.Guards`). What this rests on is that
the key names columns of its table. A table whose key named none would be written without a
condition.
-/

namespace Rowgate.Sql

/-- Whether a command writes. -/
def Command.isWrite : Command → Bool
  | .insertion _ | .change _ _ | .removal _ => true
  | _ => false

/-- Whether a write is run. -/
def Event.isWrite : Event → Bool
  | .execute statement => statement.command.isWrite
  | _ => false

/-! ## The condition of a write -/

/-- The test whether a column has the value that a key gives it. -/
def keyTestPieces (d : Dialect) (t : Table) (key : Record) (column : String) : List Piece :=
  [.words (t.path d ++ "." ++ d.spell column), .words " = ",
    .slot (stemOf column) (Record.field key column)]

/-- The condition that all of some columns have the values that a key gives them. -/
def keyedPieces (d : Dialect) (t : Table) (columns : List String) (key : Record) : List Piece :=
  .words " WHERE " :: [Piece.words " AND "].intercalate (columns.map (keyTestPieces d t key))

section Conditions

variable {d : Dialect} {t : Table} {key : Record}

/-- The test of a column of the key as a clause. -/
def keyTest (key : Record) (c : Column) : Clause := .compare c .eq false (Record.field key c.name)

theorem comparand_of_fits {k : FieldKind} {v : Value} (h : Fits k v) (stem : String) :
    Clause.comparand stem v = .slot stem v := by
  cases h <;> rfl

theorem pieces_keyTest {f : Field} {c : Column} (h : f.Holds (Record.field key c.name)) :
    (keyTest key c).pieces d t = keyTestPieces d t key c.name := by
  have hslot : Clause.comparand (stemOf c.name) (Record.field key c.name) =
      .slot (stemOf c.name) (Record.field key c.name) := by
    rcases h with hnull | hfits
    · rw [hnull]
      rfl
    · exact comparand_of_fits hfits _
  rw [keyTest, Clause.pieces, Clause.comparePieces, if_neg Bool.false_ne_true, hslot]
  rfl

theorem memberPieces_false (logic : Logic) (c : Clause) (cs : List Clause) :
    Clause.memberPieces d t logic false (c :: cs) =
      .words (Clause.junction logic) :: Clause.memberPieces d t logic true (c :: cs) := by
  rw [Clause.memberPieces, Clause.memberPieces]
  rfl

/-- The tests of a group stand one after another, without parentheses. -/
theorem memberPieces_keyTests (c : Column) (cs : List Column) :
    Clause.memberPieces d t .all true ((c :: cs).map (keyTest key)) =
      [Piece.words " AND "].intercalate ((c :: cs).map fun c => (keyTest key c).pieces d t) := by
  induction cs generalizing c with
  | nil => rfl
  | cons c' cs ih =>
      rw [List.map_cons, Clause.memberPieces, List.map_cons, memberPieces_false, ← List.map_cons,
        ih c']
      simp only [List.map_cons, List.intercalate_cons_cons]
      rfl

theorem gather_keyTests (c : Column) (cs : List Column) :
    (Clause.gather .all ((c :: cs).map (keyTest key))).settle.pieces d t =
      [Piece.words " AND "].intercalate ((c :: cs).map fun c => (keyTest key c).pieces d t) := by
  cases cs with
  | nil => rfl
  | cons c' cs =>
      -- no test is a group itself, so none is spliced into the group that they make
      have hsplice : ((c :: c' :: cs).map (keyTest key)).flatMap (Clause.splice .all) =
          (c :: c' :: cs).map (keyTest key) := by
        rw [List.flatMap_map]
        exact List.flatMap_pure_eq_map _ _
      show (Clause.group .all (((c :: c' :: cs).map (keyTest key)).flatMap _)).pieces d t = _
      rw [hsplice, Clause.pieces, memberPieces_keyTests]

/-- The condition of a statement about the row of a key tests all columns of the key. -/
theorem wherePieces_keyClause (hkey : t.keyColumns ≠ [])
    (h : ∀ c ∈ t.keyColumns, ∃ f : Field, f.Holds (Record.field key c.name)) :
    wherePieces d t " " (keyClause t key) = keyedPieces d t (t.keyColumns.map (·.name)) key := by
  rw [keyClause, keyedPieces]
  generalize t.keyColumns = columns at hkey h
  cases columns with
  | nil => exact absurd rfl hkey
  | cons c cs =>
      -- no test is a bare truth value, so none of them is dropped
      have htruth : ∀ b, ∀ x ∈ (c :: cs).map (keyTest key), Clause.isTruth b x = false := by
        intro b x hx
        obtain ⟨c', -, rfl⟩ := List.mem_map.mp hx
        rfl
      have hcombine : Clause.combine .all ((c :: cs).map (keyTest key)) =
          Clause.gather .all ((c :: cs).map (keyTest key)) := by
        rw [Clause.combine, if_neg (by simp), if_neg, List.filter_eq_self.mpr]
        · intro x hx
          rw [htruth _ x hx]
          rfl
        · simpa using htruth _
      have hpieces : ((c :: cs).map fun c => (keyTest key c).pieces d t) =
          ((c :: cs).map (·.name)).map (keyTestPieces d t key) := by
        rw [List.map_map]
        refine List.map_congr_left fun c' hc' => ?_
        obtain ⟨f, hf⟩ := h c' hc'
        exact pieces_keyTest hf
      rw [← hpieces, ← gather_keyTests, ← hcombine]
      rfl

end Conditions

/-! ## What a catalog allows -/

namespace CatalogTable

/-- The names of the columns of the key, in the order of the columns. -/
def keyColumns (t : CatalogTable) : List String :=
  (t.columns.map (·.name)).filter t.key.contains

/-- Whether a record gives all of a key, and is an offered record in the form of the columns. -/
structure IsKey (t : CatalogTable) (offered : Record → Prop) (key : Record) : Prop where
  coerced : ∃ raw, offered raw ∧ (t.entity false).coerce raw = .ok key
  full : ∀ name ∈ t.key, Record.field key name ≠ .null

/-- Whether all that is assigned are columns that are no part of the key and are not made by the
database. -/
def Assigns (t : CatalogTable) (values : Record) : Prop :=
  ∀ name ∈ values.names, (∃ c ∈ t.columns, c.name = name) ∧
    ∀ c ∈ t.columns, c.name = name → name ∉ t.key ∧ c.isGenerated = false

/-- Whether a statement is a write that a catalog allows on one of its tables. The table has a key and
is no view; a removal and a change test all columns of the key, and a change sets no column that it may
not set. -/
structure Guards (t : CatalogTable) (catalog : Catalog) (schema : Option String)
    (offered : Record → Prop) (statement : Statement) : Prop where
  reported : t ∈ catalog.tables
  keyed : t.key ≠ []
  noView : ∀ v ∈ catalog.views, v.name ≠ t.name
  table : statement.table = Table.describing schema (t.entity false)
  removal : ∀ key, statement.command = .removal key →
    t.IsKey offered key ∧ t.keyColumns ≠ [] ∧ ∀ d, statement.pieces d =
      .words ("DELETE FROM " ++ statement.table.path d) ::
        keyedPieces d statement.table t.keyColumns key
  change : ∀ values key, statement.command = .change values key →
    t.IsKey offered key ∧ t.keyColumns ≠ [] ∧ t.Assigns values ∧ ∀ d, statement.pieces d =
      .words ("UPDATE " ++ statement.table.path d ++ " SET ") ::
        (commaPieces (values.map fun e => [.words (d.spell e.1 ++ "="), valueSlot e]) ++
          keyedPieces d statement.table t.keyColumns key)

end CatalogTable

/-- Whether the keys of the tables of a catalog name columns of their tables. -/
def Catalog.KeysReported (catalog : Catalog) : Prop :=
  ∀ t ∈ catalog.tables, ∀ name ∈ t.key, ∃ c ∈ t.columns, c.name = name

section Catalogs

variable {catalog : Catalog} {t : CatalogTable} {schema : Option String}
  {operators : List Operator} {s : TableService} {e : Entity} {offered : Record → Prop}

/-- What may be written is a table with a key that shares its name with no view. -/
theorem exists_table_of_writable (he : e ∈ catalog.entities) (hwritable : e.readOnly = false) :
    ∃ t ∈ catalog.tables, e = t.entity false ∧ t.key ≠ [] ∧ ∀ v ∈ catalog.views, v.name ≠ t.name := by
  rcases List.mem_append.mp he with he | he
  · obtain ⟨t, ht, rfl⟩ := List.mem_map.mp he
    obtain ⟨hview, hkey⟩ := Bool.or_eq_false_iff.mp hwritable
    refine ⟨t, ht, by rw [hview], fun hnil => ?_, fun v hv hname => ?_⟩
    · rw [hnil] at hkey
      cases hkey
    · rw [List.any_eq_false] at hview
      exact hview v hv (beq_iff_eq.mpr hname)
  · obtain ⟨t, -, rfl⟩ := List.mem_map.mp he
    cases hwritable

theorem nodup_of_columnFault? {taken : List String} {columns : List Column}
    (h : Table.columnFault? taken columns = none) :
    (columns.map (·.name)).Nodup ∧ ∀ c ∈ columns, c.name ∉ taken := by
  induction columns generalizing taken with
  | nil => exact ⟨List.nodup_nil, fun _ h => nomatch h⟩
  | cons c cs ih =>
      rw [Table.columnFault?] at h
      split at h
      · cases h
      split at h
      · cases h
      · next htaken =>
          obtain ⟨hnodup, hfresh⟩ := ih h
          refine ⟨List.nodup_cons.mpr ⟨fun hc => ?_, hnodup⟩, fun c' hc' => ?_⟩
          · obtain ⟨c', hc', hname⟩ := List.mem_map.mp hc
            exact hfresh c' hc' (hname ▸ List.mem_cons_self)
          · rcases List.mem_cons.mp hc' with rfl | hc'
            · simpa using htaken
            · exact fun hin => hfresh c' hc' (List.mem_cons_of_mem _ hin)

/-- The service of a table is for the table of the entity, whose columns have different names. -/
theorem service_of_entity (h : TableService.ofEntity schema operators e = .ok s) :
    s.entity = e ∧ s.table = Table.describing schema e ∧ (e.fields.map (·.name)).Nodup := by
  rw [TableService.ofEntity] at h
  obtain ⟨table, htable, rfl⟩ := map_eq_ok h
  rw [Table.ofEntity] at htable
  split at htable
  · cases htable
  · next hfault =>
      cases htable
      refine ⟨rfl, rfl, ?_⟩
      have hnodup := (nodup_of_columnFault? hfault).1
      rwa [Table.describing, List.map_map] at hnodup

theorem names_entity (isView : Bool) :
    (t.entity isView).fields.map (·.name) = t.columns.map (·.name) := by
  rw [CatalogTable.entity, List.map_map]
  rfl

theorem keyNames_entity (isView : Bool) : (t.entity isView).keyNames = t.keyColumns := by
  rw [Entity.keyNames, Entity.keyFields, CatalogTable.entity, CatalogTable.keyColumns,
    List.filter_map, List.filter_map, List.map_map]
  rfl

theorem keyColumns_describing :
    (Table.describing schema e).keyColumns.map (·.name) = e.keyNames := by
  rw [Table.keyColumns, Table.describing, Entity.keyNames, Entity.keyFields, List.filter_map,
    List.map_map]
  rfl

theorem mem_keyColumns (hkeys : catalog.KeysReported) (ht : t ∈ catalog.tables) {name : String}
    (h : name ∈ t.key) : name ∈ t.keyColumns := by
  obtain ⟨c, hc, hname⟩ := hkeys t ht name h
  exact List.mem_filter.mpr ⟨List.mem_map.mpr ⟨c, hc, hname⟩, List.contains_iff_mem.mpr h⟩

theorem keyColumns_ne_nil (hkeys : catalog.KeysReported) (ht : t ∈ catalog.tables)
    (hkey : t.key ≠ []) : t.keyColumns ≠ [] := by
  obtain ⟨name, rest, h⟩ := List.exists_cons_of_ne_nil hkey
  exact List.ne_nil_of_mem (mem_keyColumns hkeys ht (h ▸ List.mem_cons_self))

/-- A request that misses no part of the key is about one row. -/
theorem isKey_of_missingKeys (hkeys : catalog.KeysReported) (ht : t ∈ catalog.tables)
    {raw key : Record} (hraw : offered raw) (hkey : (t.entity false).coerce raw = .ok key)
    (hmissing : (t.entity false).missingKeys key = []) : t.IsKey offered key := by
  refine ⟨⟨raw, hraw, hkey⟩, fun name hname hnull => ?_⟩
  rw [Entity.missingKeys, keyNames_entity, List.filter_eq_nil_iff] at hmissing
  exact hmissing name (mem_keyColumns hkeys ht hname) (by rw [hnull]; rfl)

/-- The condition of a write on a table with a key. -/
theorem wherePieces_of_isKey (hkey : t.keyColumns ≠ []) {key : Record}
    (hcoerced : ∃ raw, offered raw ∧ (t.entity false).coerce raw = .ok key) (d : Dialect) :
    wherePieces d (Table.describing schema (t.entity false)) " "
        (keyClause (Table.describing schema (t.entity false)) key) =
      keyedPieces d (Table.describing schema (t.entity false)) t.keyColumns key := by
  have hnames : (Table.describing schema (t.entity false)).keyColumns.map (·.name) =
      t.keyColumns := by
    rw [keyColumns_describing, keyNames_entity]
  obtain ⟨raw, -, hraw⟩ := hcoerced
  rw [wherePieces_keyClause, hnames]
  · intro hnil
    rw [hnil] at hnames
    exact hkey hnames.symm
  · intro c hc
    have hname : c.name ∈ (t.entity false).keyNames := by
      rw [keyNames_entity, ← hnames]
      exact List.mem_map_of_mem hc
    obtain ⟨f, hf⟩ := Entity.exists_fieldNamed?_of_mem_keyNames hname
    exact ⟨f, field_holds_of_coerceEntries hraw hf⟩

/-- What a change sets are columns that it may set. -/
theorem assigns_written (hnames : (t.columns.map (·.name)).Nodup) (key : Record) :
    t.Assigns (TableService.written (t.entity false) false key) := by
  intro name hname
  obtain ⟨entry, hentry, rfl⟩ := List.mem_map.mp hname
  obtain ⟨f, hf, rfl⟩ := List.mem_map.mp hentry
  obtain ⟨hf, hwritten⟩ := List.mem_filter.mp hf
  obtain ⟨c, hc, rfl⟩ := List.mem_map.mp hf
  simp only [TableService.isWritten, Bool.false_and, Bool.or_false, Bool.and_eq_true,
    Bool.not_eq_true'] at hwritten
  obtain ⟨⟨-, hgenerated⟩, hkey⟩ := hwritten
  refine ⟨⟨c, hc, rfl⟩, fun c' hc' hsame => ⟨fun hin => ?_, ?_⟩⟩
  · exact Bool.false_ne_true (hkey.symm.trans (List.contains_iff_mem.mpr hin))
  · rw [List.inj_on_of_nodup_map hnames hc' hc hsame]
    exact hgenerated

/-- Every write of a service that was discovered is guarded. -/
theorem guards_of_runs (hkeys : catalog.KeysReported) (he : e ∈ catalog.entities)
    (hs : TableService.ofEntity schema operators e = .ok s) {statement : Statement}
    (h : s.Runs offered statement) (hwrite : statement.command.isWrite = true) :
    ∃ t : CatalogTable, e = t.entity false ∧ t.Guards catalog schema offered statement := by
  obtain ⟨rfl, htable, hnames⟩ := service_of_entity hs
  have hwritable : s.entity.readOnly = false := by
    cases h with
    | insertion _ h => exact h
    | change h => exact h
    | removal h => exact h
    | _ => cases hwrite
  obtain ⟨t, ht, hentity, hkey, hview⟩ := exists_table_of_writable he hwritable
  have hcolumns := keyColumns_ne_nil hkeys ht hkey
  rw [hentity] at htable
  refine ⟨t, hentity, ht, hkey, hview, ?_, ?_, ?_⟩
  · cases h <;> exact htable
  -- what was checked before a removal or a change stands in `Runs`; the command tells the case
  · rintro key hcommand
    cases h with
    | @removal raw key' _ hraw hcoerced hmissing =>
        obtain rfl : key' = key := by injection hcommand
        rw [hentity] at hcoerced hmissing
        have hiskey := isKey_of_missingKeys hkeys ht hraw hcoerced hmissing
        refine ⟨hiskey, hcolumns, fun d => ?_⟩
        rw [Statement.pieces, htable, ← wherePieces_of_isKey hcolumns hiskey.coerced]
        rfl
    | _ => cases hcommand
  · rintro values key hcommand
    cases h with
    | @change raw key' _ hraw hcoerced hmissing =>
        obtain ⟨rfl, rfl⟩ : TableService.written s.entity false key' = values ∧ key' = key := by
          injection hcommand with hvalues hkey'
          exact ⟨hvalues, hkey'⟩
        rw [hentity] at hcoerced hmissing hnames ⊢
        have hiskey := isKey_of_missingKeys hkeys ht hraw hcoerced hmissing
        refine ⟨hiskey, hcolumns, assigns_written (names_entity false ▸ hnames) _, fun d => ?_⟩
        rw [Statement.pieces, htable, ← wherePieces_of_isKey hcolumns hiskey.coerced]
        rfl
    | _ => cases hcommand

end Catalogs

end Rowgate.Sql
