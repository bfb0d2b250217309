import Rowgate.Filter.Equality
import Rowgate.Proofs.Value.Portable

/-!
# Filters that are read back

The written form of a filter leaves out what has no effect, so only a tidy filter comes back as it
was: its groups have nothing of a test, and its tests have the logic that a missing one stands for.
`nodeOf_toValue` says that a tidy filter does come back, if it is not too high. On its way through
JSON the values of its tests change as `Value.reread` says; the tree around them stays.
-/

namespace Rowgate

open Shape

theorem Shape.memberOr_of_find? {α : Type} {r : Record} {key : Key} {name : String} {v : Value}
    {default a : α} {check : Value → Checked α} (h : key.find? r = some (name, v))
    (hv : check v = .ok a) : memberOr r key default check = .ok a := by
  rw [memberOr, h]
  show within name (check v) = .ok a
  rw [hv]
  rfl

/-- Whether a test says what it tests. -/
def Test.Complete (t : Test) : Prop := t.fieldName ≠ "" ∧ t.operator.isSome

/-- Whether a test can be written as JSON and is read back as an equal one. -/
def Test.Portable (t : Test) : Prop := Text.Whole t.fieldName.toList ∧ t.value.Portable

/-- What is read back of a test. -/
def Test.reread (t : Test) : Test := { t with value := t.value.reread }

namespace Filter

/-- A filter without parts that have no effect, whose tests satisfy `P`. -/
inductive Tidy (P : Test → Prop) : Filter → Prop
  | leaf {t : Test} (hcomplete : t.Complete) (h : P t) : Tidy P (.leaf t)
  | group {logic : Logic} {members : List (Option Filter)} (hne : members ≠ [])
      (h : ∀ f, some f ∈ members → Tidy P f) : Tidy P (.group logic members)

mutual

/-- What is read back of a filter that was written as JSON. -/
def reread : Filter → Filter
  | .node t logic members => .node t.reread logic (rereadMembers members)

/-- What is read back of the members of a node. -/
def rereadMembers : List (Option Filter) → List (Option Filter)
  | [] => []
  | none :: ms => none :: rereadMembers ms
  | some f :: ms => some (reread f) :: rereadMembers ms

end

mutual

/-- How many nodes lie inside each other, the outermost one included. -/
def height : Filter → Nat
  | .node _ _ members => membersHeight members + 1

/-- How many nodes lie inside each other among the members of a node. -/
def membersHeight : List (Option Filter) → Nat
  | [] => 0
  | none :: ms => membersHeight ms
  | some f :: ms => max (height f) (membersHeight ms)

end

theorem height_le_membersHeight {ms : List (Option Filter)} {f : Filter} (h : some f ∈ ms) :
    f.height ≤ membersHeight ms := by
  induction ms with
  | nil => cases h
  | cons m ms ih =>
      rcases List.mem_cons.mp h with rfl | htail
      · exact le_max_left _ _
      · cases m with
        | none => exact ih htail
        | some g => exact le_trans (ih htail) (le_max_right _ _)

/-! ## Reading what was written -/

theorem readOperator_name (o : Operator) : readOperator (.str o.name) = .ok (some o) := by
  have hname : normalName o.name = o.name := by
    cases o <;> decide +kernel
  rw [readOperator, hname, Operator.ofName?_name]

theorem readLogic_name (l : Logic) : readLogic (.str l.name) = .ok l := by
  cases l <;> rfl

/-- The parts of a test are read from its entries. -/
theorem ofParts_testRecord {t : Test} (h : t.Complete) :
    ofParts (testRecord t) (.ok []) = .ok (.leaf t) := by
  obtain ⟨field, operator, value, ignoreCase⟩ := t
  obtain ⟨hname, hsome⟩ := h
  cases field with
  | none => exact absurd rfl hname
  | some field =>
      cases operator with
      | none => cases hsome
      | some operator =>
          generalize ht : (⟨some field, some operator, value, ignoreCase⟩ : Test) = t at *
          have hfield : memberOr (testRecord t) (.plain "field") none (nullable text) =
              .ok (some field) := by
            rw [← ht]
            exact memberOr_of_find? rfl rfl
          have hoperator : memberOr (testRecord t) (.plain "operator") none readOperator =
              .ok (some operator) := by
            rw [← ht]
            exact memberOr_of_find? rfl (readOperator_name operator)
          have hvalue : memberOr (testRecord t) (.plain "value") .null .ok = .ok value := by
            rw [← ht]
            exact memberOr_of_find? rfl rfl
          have hcase : memberOr (testRecord t) ignoreCaseKey false truth = .ok ignoreCase := by
            rw [← ht]
            cases ignoreCase <;> rfl
          have hlogic : memberOr (testRecord t) (.plain "logic") .all readLogic = .ok .all := by
            rw [← ht]
            cases ignoreCase <;> rfl
          have hcomplete : complete t [] = true := by
            rw [← ht] at hname ⊢
            simpa [complete] using hname
          rw [ofParts, hfield, hoperator, hvalue, hcase, hlogic]
          show (if complete ⟨some field, some operator, value, ignoreCase⟩ [] then _ else _) = _
          rw [ht, if_pos hcomplete]
          rfl

/-- The parts of a group are read from its entries. -/
theorem ofParts_group (l : Logic) {ms : List (Option Filter)} (hne : ms ≠ []) :
    ofParts (group l ms).toRecord (.ok ms) = .ok (group l ms) := by
  have hrecord : (group l ms).toRecord =
      [("logic", .str l.name), (membersKey, .list (memberValues ms))] := by
    rw [group, toRecord, if_neg (by simpa using hne)]
  have hlogic : memberOr (group l ms).toRecord (.plain "logic") .all readLogic = .ok l := by
    rw [hrecord]
    exact memberOr_of_find? rfl (readLogic_name l)
  have hcomplete : complete .blank ms = true := by
    simp [complete, hne]
  rw [ofParts, hlogic, hrecord]
  show (if complete .blank ms then _ else _) = _
  rw [if_pos hcomplete]
  rfl

theorem membersIn_testRecord (depth : Nat) (t : Test) :
    membersIn depth (testRecord t) = .ok [] := by
  rw [testRecord]
  cases t.ignoreCase <;> rfl

/-- The members of a group are read from their values if each of them is. -/
theorem membersFrom_memberValues {depth : Nat} {ms : List (Option Filter)}
    (h : ∀ f, some f ∈ ms → nodeOf depth f.toValue = .ok f) (i : Nat) :
    membersFrom depth i (memberValues ms) = .ok ms := by
  induction ms generalizing i with
  | nil => rfl
  | cons m ms ih =>
      have htail := ih (fun f hf => h f (List.mem_cons_of_mem _ hf)) (i + 1)
      cases m with
      | none =>
          rw [memberValues, membersFrom, htail]
          rfl
      | some f =>
          rw [memberValues, membersFrom, htail]
          show Except.bind
            (both (within (toString i) ((nodeOf depth f.toValue).map some)) (.ok ms)) _ = _
          rw [h f List.mem_cons_self]
          rfl

/-- A tidy filter is read from its value. -/
theorem nodeOf_toValue {P : Test → Prop} {f : Filter} (h : f.Tidy P) {depth : Nat}
    (hdepth : f.height ≤ depth) : nodeOf depth f.toValue = .ok f := by
  induction h generalizing depth with
  | leaf hcomplete _ =>
      obtain ⟨depth, rfl⟩ : ∃ k, depth = k + 1 := ⟨depth - 1, by rw [leaf, height] at hdepth; omega⟩
      rw [toValue, nodeOf]
      show ofParts (testRecord _) (membersIn depth (testRecord _)) = _
      rw [membersIn_testRecord, ofParts_testRecord hcomplete]
  | @group l ms hne _ ih =>
      rw [group, height] at hdepth
      obtain ⟨depth, rfl⟩ : ∃ k, depth = k + 1 := ⟨depth - 1, by omega⟩
      have hmembers : membersIn depth (group l ms).toRecord = .ok ms := by
        rw [group, toRecord, if_neg (by simpa using hne)]
        show within membersKey (membersFrom depth 0 (memberValues ms)) = _
        rw [membersFrom_memberValues fun f hf =>
          ih f hf (le_trans (height_le_membersHeight hf) (by omega))]
        rfl
      rw [toValue, nodeOf, hmembers, ofParts_group l hne]

/-! ## Through JSON -/

theorem rereadEntries_testRecord (t : Test) :
    Value.rereadEntries (testRecord t) = testRecord t.reread := by
  obtain ⟨field, operator, value, ignoreCase⟩ := t
  cases field <;> cases operator <;> cases ignoreCase <;> rfl

mutual

/-- A filter on its way through JSON changes in the values of its tests only. -/
theorem reread_toValue : ∀ f : Filter, f.toValue.reread = f.reread.toValue
  | .node t l ms => by
      rw [toValue, Value.reread, reread, toValue, toRecord, toRecord]
      cases ms with
      | nil => exact congrArg Value.dict (rereadEntries_testRecord t)
      | cons m ms =>
          have hmembers := rereadItems_memberValues (m :: ms)
          have hempty : (rereadMembers (m :: ms)).isEmpty = false := by
            cases m <;> rfl
          rw [List.isEmpty_cons, hempty, if_neg Bool.false_ne_true, if_neg Bool.false_ne_true,
            ← hmembers]
          rfl

theorem rereadItems_memberValues : ∀ ms : List (Option Filter),
    Value.rereadItems (memberValues ms) = memberValues (rereadMembers ms)
  | [] => rfl
  | none :: ms => by
      rw [memberValues, Value.rereadItems, rereadItems_memberValues ms]
      rfl
  | some f :: ms => by
      rw [memberValues, Value.rereadItems, rereadItems_memberValues ms, ← toValue, reread_toValue f]
      rfl

end

mutual

theorem height_reread : ∀ f : Filter, f.reread.height = f.height
  | .node t l ms => by rw [reread, height, height, membersHeight_rereadMembers ms]

theorem membersHeight_rereadMembers : ∀ ms : List (Option Filter),
    membersHeight (rereadMembers ms) = membersHeight ms
  | [] => rfl
  | none :: ms => membersHeight_rereadMembers ms
  | some f :: ms => by
      rw [rereadMembers, membersHeight, membersHeight, height_reread f,
        membersHeight_rereadMembers ms]

end

mutual

/-- A filter is no higher than its value is deep. -/
theorem height_le_depth : ∀ f : Filter, f.height ≤ f.toValue.depth
  | .node t l [] => Nat.le_add_left 1 _
  | .node t l (m :: ms) => by
      have hmembers := membersHeight_le_itemsDepth (m :: ms)
      rw [height, toValue, Value.depth]
      show _ ≤ max 1 (max (Value.itemsDepth (memberValues (m :: ms)) + 1) 0) + 1
      omega

theorem membersHeight_le_itemsDepth : ∀ ms : List (Option Filter),
    membersHeight ms ≤ Value.itemsDepth (memberValues ms)
  | [] => Nat.zero_le _
  | none :: ms => le_trans (membersHeight_le_itemsDepth ms) (le_max_right _ _)
  | some f :: ms => max_le_max (height_le_depth f) (membersHeight_le_itemsDepth ms)

end

theorem rereadMembers_eq_map (ms : List (Option Filter)) :
    rereadMembers ms = ms.map (Option.map reread) := by
  induction ms with
  | nil => rfl
  | cons m ms ih => cases m <;> exact congrArg (_ :: ·) ih

theorem memberValues_eq_map (ms : List (Option Filter)) :
    memberValues ms = ms.map fun m => (m.map toValue).getD .null := by
  induction ms with
  | nil => rfl
  | cons m ms ih => cases m <;> exact congrArg (_ :: ·) ih

/-- What is read back of a tidy filter is tidy. -/
theorem Tidy.reread {P : Test → Prop} {f : Filter} (h : f.Tidy P) :
    f.reread.Tidy fun _ => True := by
  induction h with
  | @leaf t hcomplete _ => exact .leaf (t := t.reread) hcomplete trivial
  | @group l ms hne _ ih =>
      rw [Filter.group, Filter.reread, rereadMembers_eq_map]
      refine .group (by simpa using hne) fun g hg => ?_
      obtain ⟨m, hm, heq⟩ := List.mem_map.mp hg
      obtain ⟨f, rfl, rfl⟩ := Option.map_eq_some_iff.mp heq
      exact ih f hm

theorem portable_optionalText {s : Option String} (h : Text.Whole (s.getD "").toList) :
    (optionalText s).Portable := by
  cases s with
  | none => exact .null
  | some s => exact .str h

theorem portable_operatorValue (o : Option Operator) : (operatorValue o).Portable := by
  refine portable_optionalText ?_
  cases o with
  | none => decide
  | some o => cases o <;> decide

theorem portable_testRecord {t : Test} (h : t.Portable) : (Value.dict (testRecord t)).Portable := by
  have hentries : ∀ e ∈ testRecord t, Text.Whole e.1.toList ∧ e.2.Portable := by
    intro e he
    rcases List.mem_append.mp he with he | he
    · simp only [List.mem_cons, List.not_mem_nil, or_false] at he
      rcases he with rfl | rfl | rfl
      · exact ⟨(by decide : Text.Whole "field".toList), portable_optionalText h.1⟩
      · exact ⟨(by decide : Text.Whole "operator".toList), portable_operatorValue t.operator⟩
      · exact ⟨(by decide : Text.Whole "value".toList), h.2⟩
    · split at he
      · rw [List.mem_singleton.mp he]
        exact ⟨(by decide : Text.Whole "ignoreCase".toList), .bool true⟩
      · cases he
  refine .dict ?_ (fun e he => (hentries e he).1) fun e he => (hentries e he).2
  rw [testRecord]
  cases t.ignoreCase
  · exact (by decide : ["field", "operator", "value"].Nodup)
  · exact (by decide : ["field", "operator", "value", "ignoreCase"].Nodup)

/-- A filter of values that travel is written as a value that travels. -/
theorem Tidy.portable_toValue {f : Filter} (h : f.Tidy Test.Portable) : f.toValue.Portable := by
  induction h with
  | leaf _ ht => exact portable_testRecord ht
  | @group l ms hne _ ih =>
      have hmembers : (Value.list (memberValues ms)).Portable := by
        refine .list fun v hv => ?_
        rw [memberValues_eq_map] at hv
        obtain ⟨m, hm, rfl⟩ := List.mem_map.mp hv
        cases m with
        | none => exact .null
        | some f => exact ih f hm
      have hlogic : (Value.str l.name).Portable := .str (by cases l <;> decide)
      rw [toValue, Filter.group, toRecord, if_neg (by simpa using hne)]
      refine .dict (by decide : ["logic", membersKey].Nodup) ?_ ?_
      · exact List.forall_mem_cons.mpr ⟨(by decide : Text.Whole "logic".toList),
          List.forall_mem_singleton.mpr (by decide : Text.Whole membersKey.toList)⟩
      · exact List.forall_mem_cons.mpr ⟨hlogic, List.forall_mem_singleton.mpr hmembers⟩

theorem membersAgree_reread {ms : List (Option Filter)}
    (h : ∀ f, some f ∈ ms → f.reread.agrees Value.equals f = true) :
    membersAgree Value.equals (rereadMembers ms) ms = true := by
  induction ms with
  | nil => rfl
  | cons m ms ih =>
      have htail := ih fun f hf => h f (List.mem_cons_of_mem _ hf)
      cases m with
      | none => exact htail
      | some f =>
          rw [rereadMembers, membersAgree, h f List.mem_cons_self, htail]
          rfl

/-- The filter that is read back is equal. -/
theorem Tidy.agrees_reread {f : Filter} (h : f.Tidy Test.Portable) :
    f.reread.agrees Value.equals f = true := by
  induction h with
  | @leaf t _ ht =>
      rw [Filter.leaf, Filter.reread, agrees]
      show (t.reread.agrees Value.equals t && _ && _) = true
      rw [Test.agrees, Test.reread, ht.2.equals_reread]
      simp [rereadMembers, membersAgree, logic, members]
  | @group l ms _ _ ih =>
      rw [Filter.group, Filter.reread, agrees, members, membersAgree_reread ih]
      simp [Test.agrees, Test.reread, Test.blank, Value.reread, Value.equals, Value.isNull, logic,
        test]

/-! ## Examples -/

/-- A test inside so many groups. -/
def wrapped : Nat → Filter
  | 0 => .leaf (.of "A" .eq (.int 1) false)
  | n + 1 => .group .all [some (wrapped n)]

theorem tidy_wrapped (n : Nat) : (wrapped n).Tidy Test.Portable := by
  induction n with
  | zero => exact .leaf ⟨by decide, rfl⟩ ⟨by decide, .int (by decide)⟩
  | succ n ih =>
      refine .group (List.cons_ne_nil _ _) fun f hf => ?_
      rw [List.mem_singleton, Option.some_inj] at hf
      rw [hf]
      exact ih

end Filter

end Rowgate
