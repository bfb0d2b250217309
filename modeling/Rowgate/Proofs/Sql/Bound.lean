import Rowgate.Proofs.Sql.Placeholders
import Rowgate.Proofs.Store.Operators

/-!
# What a filter binds

Not every test of a filter gives its value to the statement. A test that is given null is false whatever
the row, a group without members is what its logic starts from, and a group with a member that decides it
is that constant, which leaves nothing of its other members. `Filter.boundTests` says which tests are left,
and `Test.bindings` what such a test binds: one value, behind the words that compare the column with it.

On the other side there is the clause. Its normal form moves members of a group into the group around it
and drops constants; neither changes the order in which values come. So what a clause binds can be read
off before it is brought to normal form (`bindings_combine`), and the induction over a filter has to know
of a member no more than what it binds and which constant it is.
-/

namespace Rowgate

open Outcome

/-! ## What is left of a filter -/

/-- Whether a test is false whatever the row, since it is given nothing to compare with. -/
def Test.isVain (t : Test) : Bool := t.value.isNull && !t.operator.any Operator.isValueless

namespace Filter

/-- Whether a filter is a constant before anything is combined. -/
def isConstantly (b : Bool) : Filter → Bool
  | .node t logic members =>
    if members.isEmpty then t.isVain && !b
    else members.all Option.isNone && b == Sql.Clause.neutral logic

/-- Whether a member of a group decides it. -/
def isDecided (logic : Logic) (members : List (Option Filter)) : Bool :=
  members.any fun m => m.any (isConstantly !Sql.Clause.neutral logic)

mutual

/-- The tests that a filter leaves for the database, from the left. -/
def boundTests : Filter → List Test
  | .node t logic members =>
    if members.isEmpty then [t] else if isDecided logic members then [] else memberBoundTests members

/-- The tests that the members of a group leave. -/
def memberBoundTests : List (Option Filter) → List Test
  | [] => []
  | none :: ms => memberBoundTests ms
  | some f :: ms => boundTests f ++ memberBoundTests ms

end

end Filter

namespace Sql

/-- What stands before the value that a column is compared with: the column, and the word for the
comparison. Both sides of it are in small letters if `fold`. -/
def leadOf (target word : String) (fold : Bool) : String :=
  if fold then "lower(" ++ target ++ ")" ++ word ++ "lower(" else target ++ word

end Sql

namespace Operator

open Sql

/-- What stands before the value of an operator on a column. -/
def lead (o : Operator) (t : Table) (c : Column) (fold : Bool) : String :=
  match o.relation? with
  | some r => leadOf (t.columnPath .sqlite c) (" " ++ r.sign ++ " ") fold
  | none => leadOf (Clause.patternTarget .sqlite t c) (Clause.likeWord (o == .doesNotContain)) fold

/-- The value that an operator binds for a condition: the condition, or the pattern of the texts to
find. -/
def boundValue (o : Operator) (condition : Value) : Value :=
  match condition with
  | .str s => .str (if o.isSearch then String.ofList (patternOf o s.toList) else s)
  | v => v

end Operator

open Sql in
/-- What a test binds: nothing if it has no condition or is given null, else one value. -/
def Test.bindings (s : ClauseScope) (t : Test) : List Binding :=
  match t.operator, s.table.column? t.fieldName,
      t.condition (fieldNamed? s.fields t.fieldName) with
  | some o, some c, .ok w =>
    if o.isValueless || w.isNull then []
    else [⟨o.lead s.table c (t.folds (fieldNamed? s.fields t.fieldName)), o.boundValue w⟩]
  | _, _, _ => []

namespace Sql

/-! ## What a clause binds -/

namespace Clause

mutual

/-- The values in the slots of a clause; a truth value has none. -/
def bindings (t : Table) : Clause → List Binding
  | .compare _ _ _ (.bool _) => []
  | .compare c r fold v => [⟨leadOf (t.columnPath .sqlite c) (" " ++ r.sign ++ " ") fold, v⟩]
  | .like c negated fold pattern =>
    [⟨leadOf (patternTarget .sqlite t c) (likeWord negated) fold, .str pattern⟩]
  | .group _ cs => memberBindings t cs
  | _ => []

/-- The values in the slots of the members of a group. -/
def memberBindings (t : Table) : List Clause → List Binding
  | [] => []
  | c :: cs => bindings t c ++ memberBindings t cs

end

variable {t : Table}

theorem memberBindings_eq_flatMap (cs : List Clause) :
    memberBindings t cs = cs.flatMap (bindings t) := by
  induction cs with
  | nil => rfl
  | cons c cs ih => rw [memberBindings, ih, List.flatMap_cons]

theorem bindings_compare {v : Value} (h : ∀ b, v ≠ .bool b) (c : Column) (r : Relation)
    (fold : Bool) : bindings t (.compare c r fold v) =
      [⟨leadOf (t.columnPath .sqlite c) (" " ++ r.sign ++ " ") fold, v⟩] := by
  cases v with
  | bool b => exact absurd rfl (h b)
  | _ => rfl

theorem comparand_eq_slot {v : Value} (h : ∀ b, v ≠ .bool b) (stem : String) :
    comparand stem v = .slot stem v := by
  cases v with
  | bool b => exact absurd rfl (h b)
  | _ => rfl

/-! ### Its pieces carry it -/

theorem quiet_sign (r : Relation) : Quiet (" " ++ r.sign ++ " ") := by
  cases r <;> rfl

theorem quiet_patternTarget (c : Column) : Quiet (patternTarget .sqlite t c) := by
  rw [patternTarget]
  split
  · exact quiet_columnPath _ t c
  · exact (Quiet.append (s := "CAST(") rfl (quiet_columnPath _ t c)).append rfl

/-- A comparison carries its value, whatever is compared and however. -/
theorem carries_sides {target word : String} (htarget : Quiet target) (hword : Quiet word)
    (fold : Bool) (stem : String) (v : Value) :
    Carries
      (if fold then
        inSmallLetters [.words target] ++ [.words word] ++ inSmallLetters [.slot lowerStem v]
      else [.words target, .words word, .slot stem v])
      [⟨leadOf target word fold, v⟩] := by
  cases fold with
  | true =>
      have hwords : ∀ w ∈ ["lower(", target, ")", word, "lower("], Quiet w := by
        simp only [List.forall_mem_cons]
        exact ⟨rfl, htarget, rfl, hword, rfl, List.forall_mem_nil _⟩
      have hcarries := (Carries.slot hwords lowerStem v).concat_words (s := ")") rfl
      simpa [leadOf, String.join, String.append_assoc, inSmallLetters] using hcarries
  | false =>
      have hwords : ∀ w ∈ [target, word], Quiet w := by
        simp only [List.forall_mem_cons]
        exact ⟨htarget, hword, List.forall_mem_nil _⟩
      simpa [leadOf, String.join] using Carries.slot hwords stem v

theorem carries_compare (c : Column) (r : Relation) (fold : Bool) (v : Value) :
    Carries (comparePieces .sqlite t c r fold v) (bindings t (.compare c r fold v)) := by
  have hpath := quiet_columnPath .sqlite t c
  have hsign := quiet_sign r
  by_cases hbool : ∃ b, v = .bool b
  · -- a truth value is spelled as a digit and leaves no slot
    obtain ⟨b, rfl⟩ := hbool
    have hdigit : Quiet (if b then "1" else "0") := by cases b <;> rfl
    cases fold with
    | true =>
        have hvalue := ((Carries.words (s := ")") rfl).cons_words hdigit).cons_words (s := "lower(") rfl
        exact (((hvalue.cons_words hsign).cons_words (s := ")") rfl).cons_words hpath).cons_words rfl
    | false => exact ((Carries.words hdigit).cons_words hsign).cons_words hpath
  · have hslot : ∀ b, v ≠ .bool b := fun b hb => hbool ⟨b, hb⟩
    rw [comparePieces, comparand_eq_slot hslot, comparand_eq_slot hslot, bindings_compare hslot]
    exact carries_sides hpath hsign fold _ v

theorem carries_like (c : Column) (negated fold : Bool) (pattern : String) :
    Carries (likePieces .sqlite t c negated fold pattern)
      (bindings t (.like c negated fold pattern)) := by
  have hword : Quiet (likeWord negated) := by cases negated <;> rfl
  rw [likePieces, bindings]
  exact (carries_sides (quiet_patternTarget c) hword fold _ _).concat_words rfl

theorem carries_enclose {ps : List Piece} {bs : List Binding} (h : Carries ps bs) (b : Bool) :
    Carries (enclose b ps) bs := by
  cases b with
  | true => exact (h.concat_words (s := ")") rfl).cons_words rfl
  | false => exact h

mutual

/-- The pieces of a clause carry what it binds. -/
theorem carries_pieces (t : Table) : ∀ c : Clause, Carries (c.pieces .sqlite t) (c.bindings t)
  | .group logic cs => by
      rw [pieces, bindings]
      exact carries_memberPieces t logic true cs
  | .compare c r fold v => by
      rw [pieces]
      exact carries_compare c r fold v
  | .like c negated fold pattern => by
      rw [pieces]
      exact carries_like c negated fold pattern
  | .missing c negated => by
      refine .words ((quiet_columnPath .sqlite t c).append ?_)
      cases negated <;> rfl
  | .empty c negated => by
      refine .words ((quiet_columnPath .sqlite t c).append ?_)
      cases negated <;> rfl
  | .truth b => by cases b <;> exact .words rfl
  | .settled b => by cases b <;> exact .words rfl

theorem carries_memberPieces (t : Table) (logic : Logic) (first : Bool) :
    ∀ cs : List Clause, Carries (memberPieces .sqlite t logic first cs) (memberBindings t cs)
  | [] => .nil
  | c :: cs => by
      have hmember := (carries_enclose (carries_pieces t c) (isEnclosed logic c)).append
        (carries_memberPieces t logic false cs)
      rw [memberPieces, memberBindings, List.append_assoc]
      cases first with
      | true => exact hmember
      | false => exact hmember.cons_words (by cases logic <;> rfl)

end

/-! ### Its normal form -/

theorem bindings_of_isTruth {b : Bool} {c : Clause} (h : isTruth b c = true) : bindings t c = [] := by
  cases c with
  | truth b' => rfl
  | _ => cases h

theorem flatMap_bindings_splice (logic : Logic) (c : Clause) :
    (splice logic c).flatMap (bindings t) = bindings t c := by
  cases c with
  | group l cs =>
      rw [splice]
      split
      · rw [bindings, memberBindings_eq_flatMap]
      · rw [List.flatMap_singleton]
  | _ => exact List.flatMap_singleton _ _

theorem bindings_gather (logic : Logic) (cs : List Clause) :
    bindings t (gather logic cs) = cs.flatMap (bindings t) := by
  match cs with
  | [] => rfl
  | [c] => exact (List.flatMap_singleton _ _).symm
  | c :: c' :: cs =>
      show bindings t (.group logic _) = _
      rw [bindings, memberBindings_eq_flatMap, List.flatMap_assoc]
      exact List.flatMap_congr fun c _ => flatMap_bindings_splice logic c

theorem flatMap_bindings_filter (b : Bool) (cs : List Clause) :
    (cs.filter fun c => !isTruth b c).flatMap (bindings t) = cs.flatMap (bindings t) := by
  induction cs with
  | nil => rfl
  | cons c cs ih =>
      cases htruth : isTruth b c with
      | true =>
          rw [List.filter_cons_of_neg (by simp [htruth]), List.flatMap_cons,
            bindings_of_isTruth htruth, ih, List.nil_append]
      | false =>
          rw [List.filter_cons_of_pos (by simp [htruth]), List.flatMap_cons, List.flatMap_cons, ih]

/-- A group binds what its members bind, unless one of them decides it. -/
theorem bindings_combine (logic : Logic) (cs : List Clause) :
    bindings t (combine logic cs) =
      if cs.any (isTruth !neutral logic) then [] else cs.flatMap (bindings t) := by
  rw [combine]
  split
  · next hempty =>
      rw [List.isEmpty_iff.mp hempty]
      rfl
  · split
    · rfl
    · rw [bindings_gather, flatMap_bindings_filter]

theorem isTruth_gather (logic : Logic) {b : Bool} {cs : List Clause}
    (h : ∀ c ∈ cs, isTruth b c = false) : isTruth b (gather logic cs) = false := by
  cases cs with
  | nil => rfl
  | cons c rest =>
      cases rest with
      | nil => exact h c List.mem_cons_self
      | cons c' rest => rfl

/-- Only a group without members is a constant that is still reduced. -/
theorem isTruth_combine (logic : Logic) (b : Bool) (cs : List Clause) :
    isTruth b (combine logic cs) = (cs.isEmpty && b == neutral logic) := by
  rw [combine]
  cases cs.isEmpty with
  | true => rw [if_pos rfl, isTruth, Bool.true_and, Bool.beq_comm]
  | false =>
      rw [if_neg Bool.false_ne_true, Bool.false_and]
      split
      · rfl
      · next hdecided =>
          -- what is left is neither the constant that was left out nor the one that decides
          refine isTruth_gather logic fun c hc => ?_
          obtain ⟨hmem, hneutral⟩ := List.mem_filter.mp hc
          cases Bool.eq_or_eq_not b (neutral logic) with
          | inl hb =>
              rw [hb]
              simpa using hneutral
          | inr hb =>
              rw [hb, ← Bool.not_eq_true]
              exact fun h => hdecided (List.any_eq_true.mpr ⟨c, hmem, h⟩)

end Clause

/-! ## What the clause of a filter binds -/

section

variable {schema : Option String} {e : Entity} {s : ClauseScope}

open Clause

theorem bindings_ofTest (htable : Table.ofEntity schema e = .ok s.table) (hfields : s.fields = e.fields)
    {t : Test} {c : Clause} (h : ofTest s t = .ok c) :
    c.bindings s.table = t.bindings s ∧ ∀ b, isTruth b c = (t.isVain && !b) := by
  obtain ⟨o, column, w, ho, hcolumn, hw, hc⟩ := ofTest_eq_ok h
  obtain ⟨-, f, hf, -, -⟩ := exists_field_of_column htable hcolumn
  rw [hfields, hf] at hw hc
  have hbindings : t.bindings s = if o.isValueless || w.isNull then []
      else [⟨o.lead s.table column (t.folds (some f)), o.boundValue w⟩] := by
    simp only [Test.bindings, ho, hcolumn, hfields, hf, hw]
  rw [hbindings, Test.isVain, ho, Option.any_some]
  cases hless : o.isValueless with
  | true =>
      rw [Bool.not_true, Bool.and_false, Bool.true_or, if_pos rfl]
      cases o <;> cases hless <;> (cases hc; exact ⟨rfl, fun _ => rfl⟩)
  | false =>
      rw [← Test.isNull_condition ho hless hw, Bool.not_false, Bool.and_true, Bool.false_or]
      rcases Operator.compares_or_searches hless with ⟨rel, hrel⟩ | hsearch
      · rw [Operator.clause_of_relation hrel] at hc
        rcases Test.condition_holds ho hrel hw with rfl | hfits
        · cases hc
          exact ⟨rfl, fun b => by cases b <;> rfl⟩
        · have hbool : ∀ b, w ≠ .bool b := by
            intro b hb
            rw [hb] at hfits
            generalize f.kind = kind at hfits
            cases hfits
          have hvalue : o.boundValue w = w := by
            cases o <;> cases hrel <;> cases w <;> rfl
          cases Operator.comparison_of_fits hfits Test.kind_of_folds hc
          rw [hfits.not_null, if_neg Bool.false_ne_true, bindings_compare hbool, hvalue,
            Operator.lead, hrel]
          exact ⟨rfl, fun _ => rfl⟩
      · rcases Test.condition_of_search ho hsearch hw with rfl | ⟨text, rfl⟩
        · rw [Operator.clause_of_search hsearch] at hc
          cases hc
          exact ⟨rfl, fun b => by cases b <;> rfl⟩
        · have hrel : o.relation? = none := by
            cases o <;> first | rfl | cases hsearch
          rw [Operator.clause_of_isSearch hsearch] at hc
          cases hc
          rw [Operator.boundValue, if_pos hsearch, Operator.lead, hrel]
          exact ⟨rfl, fun _ => rfl⟩

mutual

/-- The clause of a filter binds what the tests bind that the filter leaves, and is a constant if the
filter is. -/
theorem bindings_ofFilter (htable : Table.ofEntity schema e = .ok s.table)
    (hfields : s.fields = e.fields) : ∀ (f : Filter) {c : Clause}, ofFilter s f = .ok c →
      c.bindings s.table = f.boundTests.flatMap (Test.bindings s) ∧
      ∀ b, isTruth b c = f.isConstantly b
  | .node t logic members, c, h => by
      rw [ofFilter] at h
      rw [Filter.boundTests]
      by_cases hempty : members.isEmpty = true
      · rw [if_pos hempty] at h
        rw [if_pos hempty, List.flatMap_singleton]
        obtain ⟨hbindings, htruth⟩ := bindings_ofTest htable hfields h
        refine ⟨hbindings, fun b => ?_⟩
        rw [htruth, Filter.isConstantly, if_pos hempty]
      · rw [if_neg hempty] at h
        obtain ⟨cs, hcs, h⟩ := bind_eq_ok.mp h
        cases h
        obtain ⟨hbindings, hdecided, hnone⟩ := bindings_ofMembers htable hfields members hcs
        constructor
        · rw [if_neg hempty, bindings_combine, hdecided, hbindings, Filter.isDecided]
          split <;> rfl
        · intro b
          rw [isTruth_combine, Filter.isConstantly, if_neg hempty, hnone]

theorem bindings_ofMembers (htable : Table.ofEntity schema e = .ok s.table)
    (hfields : s.fields = e.fields) : ∀ (ms : List (Option Filter)) {cs : List Clause},
      ofMembers s ms = .ok cs →
      cs.flatMap (bindings s.table) = (Filter.memberBoundTests ms).flatMap (Test.bindings s) ∧
      (∀ b, cs.any (isTruth b) = ms.any fun m => m.any (Filter.isConstantly b)) ∧
      cs.isEmpty = ms.all Option.isNone
  | [], cs, h => by
      cases h
      exact ⟨rfl, fun _ => rfl, rfl⟩
  | none :: ms, cs, h => bindings_ofMembers htable hfields ms h
  | some f :: ms, cs, h => by
      obtain ⟨c, rest, hc, hrest, rfl⟩ := ofMembers_some h
      obtain ⟨hbindings, htruth⟩ := bindings_ofFilter htable hfields f hc
      obtain ⟨hbindings', htruth', -⟩ := bindings_ofMembers htable hfields ms hrest
      refine ⟨?_, fun b => ?_, rfl⟩
      · rw [List.flatMap_cons, Filter.memberBoundTests, List.flatMap_append, hbindings, hbindings']
      · rw [List.any_cons, List.any_cons, Option.any_some, htruth, htruth']

end

end

end Sql

end Rowgate
