import Rowgate.Proofs.Value.Portable
import Rowgate.Store.Evaluate

/-!
# Comparing with a value that was read back

A condition that was written as JSON and read back may be spelled in another way: an integral decimal
has become an integer. What a record holds is compared with either in the same way
(`comparesValues_reread`), so a test only tells them apart if it takes the condition as a text. Both
have one form that is read back, and it is this form by which conditions are compared here.
-/

namespace Rowgate

theorem Decimal.truncate_ofInt (i : Int) : Decimal.truncate (decide (i < 0)) i.natAbs 0 = i := by
  rw [Decimal.truncate, if_pos (Int.le_refl 0)]
  simp only [Int.toNat_zero, Nat.pow_eq, pow_zero, Nat.mul_one, decide_eq_true_eq]
  split <;> omega

theorem Decimal.reread_ofInt (i : Int) : (Decimal.ofInt i).reread = .int i := by
  have hintegral : (Decimal.finite (decide (i < 0)) i.natAbs 0).isIntegral = true := rfl
  rw [Decimal.ofInt, Decimal.reread, if_pos hintegral, Decimal.truncate_ofInt]

namespace Value

/-! ## Reading back twice -/

mutual

/-- What is read back is not changed again. -/
theorem reread_reread : ∀ v : Value, v.reread.reread = v.reread
  | .decimal d => by
      cases d with
      | finite n c e =>
          rw [reread, Decimal.reread]
          split
          · rfl
          · next h => rw [reread, Decimal.reread, if_neg h]
      | _ => rfl
  | .list vs => congrArg Value.list (rereadItems_rereadItems vs)
  | .dict es => congrArg Value.dict (rereadEntries_rereadEntries es)
  | .null | .bool _ | .int _ | .float _ | .str _ | .bytes _ | .date _ | .dateTime _ | .time _ => rfl

theorem rereadItems_rereadItems : ∀ vs : List Value,
    rereadItems (rereadItems vs) = rereadItems vs
  | [] => rfl
  | v :: vs => by
      rw [rereadItems, rereadItems, reread_reread v, rereadItems_rereadItems vs]

theorem rereadEntries_rereadEntries : ∀ es : List (String × Value),
    rereadEntries (rereadEntries es) = rereadEntries es
  | [] => rfl
  | (k, v) :: es => by
      rw [rereadEntries, rereadEntries, reread_reread v, rereadEntries_rereadEntries es]

end

theorem depth_reread_decimal (d : Decimal) : d.reread.depth = 1 := by
  cases d with
  | finite n c e =>
      rw [Decimal.reread]
      split <;> rfl
  | _ => rfl

mutual

theorem depth_reread : ∀ v : Value, v.reread.depth = v.depth
  | .decimal d => depth_reread_decimal d
  | .list vs => congrArg (· + 1) (itemsDepth_reread vs)
  | .dict es => congrArg (· + 1) (entriesDepth_reread es)
  | .null | .bool _ | .int _ | .float _ | .str _ | .bytes _ | .date _ | .dateTime _ | .time _ => rfl

theorem itemsDepth_reread : ∀ vs : List Value, itemsDepth (rereadItems vs) = itemsDepth vs
  | [] => rfl
  | v :: vs => by rw [rereadItems, itemsDepth, itemsDepth, depth_reread v, itemsDepth_reread vs]

theorem entriesDepth_reread : ∀ es : List (String × Value),
    entriesDepth (rereadEntries es) = entriesDepth es
  | [] => rfl
  | (k, v) :: es => by
      rw [rereadEntries, entriesDepth, entriesDepth, depth_reread v, entriesDepth_reread es]

end

/-- What is read back can be written again. -/
theorem Portable.reread {v : Value} (h : v.Portable) : v.reread.Portable := by
  induction h with
  | null => exact .null
  | bool b => exact .bool b
  | int h => exact .int h
  | @decimal n c e hr hd =>
      rw [Value.reread, Decimal.reread]
      split
      · next hi => exact .int (hd hi)
      · exact .decimal hr hd
  | str h => exact .str h
  | list _ ih =>
      rw [Value.reread, rereadItems_eq_map]
      exact .list (List.forall_mem_map.mpr ih)
  | dict hnames htexts _ ih =>
      have hsame : ∀ es, Record.names (rereadEntries es) = Record.names es := fun es => by
        rw [rereadEntries_eq_map, Record.names, List.map_map]
        rfl
      rw [Value.reread]
      refine .dict ((hsame _).symm ▸ hnames) ?_ ?_
      · rw [rereadEntries_eq_map]
        exact List.forall_mem_map.mpr htexts
      · rw [rereadEntries_eq_map]
        exact List.forall_mem_map.mpr ih

/-! ## Comparing with either -/

/-- Whether a value is of a kind that records hold: no list, no dictionary, and no floating point
number. -/
def isScalar : Value → Bool
  | .float _ => false
  | .list _ => false
  | .dict _ => false
  | _ => true

/-- How a value can change when it is read back: an integral decimal becomes an integer, and lists and
dictionaries become others. -/
inductive Respelled : Value → Value → Prop
  | same (v : Value) : Respelled v v
  | integral {n : Bool} {c : Nat} {e i : Int} (h : Decimal.signed n c e = i) :
      Respelled (.decimal (.finite n c e)) (.int i)
  | list (vs ws : List Value) : Respelled (.list vs) (.list ws)
  | dict (es fs : List (String × Value)) : Respelled (.dict es) (.dict fs)

theorem respelled_reread (v : Value) : Respelled v v.reread := by
  cases v with
  | decimal d =>
      cases d with
      | finite n c e =>
          rw [reread, Decimal.reread]
          split
          · next h => exact .integral (Decimal.truncate_of_isIntegral h).symm
          · exact .same _
      | _ => exact .same _
  | list vs => exact .list _ _
  | dict es => exact .dict _ _
  | _ => exact .same _

theorem compareValue_integral {n : Bool} {c : Nat} {e i : Int} (h : Decimal.signed n c e = i)
    (a : Decimal) : a.compareValue (.ofInt i) = a.compareValue (.finite n c e) := by
  have hint : (Decimal.ofInt i).extended? = (Decimal.finite n c e).extended? := by
    have hrational := Decimal.rational?_ofInt i
    rw [Decimal.ofInt, Decimal.rational?, Option.some_inj] at hrational
    rw [Decimal.ofInt, Decimal.extended?, Decimal.extended?, hrational, h]
  rw [Decimal.compareValue_eq_extended, Decimal.compareValue_eq_extended, hint]

variable {u v w : Value}

theorem Respelled.sameNumber_eq (h : Respelled v w) (u : Value) :
    u.sameNumber w = u.sameNumber v := by
  cases h with
  | integral h =>
      rw [sameNumber, sameNumber]
      cases u.number? with
      | none => rfl
      | some a => exact congrArg (· == some Ordering.eq) (compareValue_integral h a)
  | _ => rfl

theorem Respelled.numbersRefuse_eq (h : Respelled v w) (u : Value) :
    u.numbersRefuse w = u.numbersRefuse v := by
  rw [numbersRefuse, numbersRefuse]
  cases u.number? <;> cases h <;> rfl

/-- Numbers are compared with a decimal and with the integer that it is read back as in the same way;
only a floating point number that is none is told apart from them. -/
theorem Respelled.compareNumbers_eq (h : Respelled v w) (hu : u.isScalar = true) :
    u.compareNumbers w = u.compareNumbers v := by
  cases h with
  | integral h =>
      cases u with
      | decimal d =>
          simp only [compareNumbers, number?, compareValue_integral h d]
          cases d.compareValue _ <;> rfl
      | int j =>
          simp only [compareNumbers, number?, compareValue_integral h (.ofInt j)]
          rw [Decimal.ofInt, Decimal.compareValue_finite]
      | bool b =>
          simp only [compareNumbers, number?, compareValue_integral h (.ofInt _)]
          rw [Decimal.ofInt, Decimal.compareValue_finite]
      | float f => cases hu
      | _ => rfl
  | same => rfl
  | _ =>
      rw [compareNumbers, compareNumbers]
      cases u.number? <;> rfl

theorem Respelled.equals_eq (h : Respelled v w) (hu : u.isScalar = true) : u.equals w = u.equals v := by
  cases u with
  | bool b => exact h.sameNumber_eq _
  | int i => exact h.sameNumber_eq _
  | decimal d => exact h.sameNumber_eq _
  | float f => cases hu
  | list vs => cases hu
  | dict es => cases hu
  | _ => cases h <;> rfl

theorem Respelled.refusesEquality_eq (h : Respelled v w) (hu : u.isScalar = true) :
    u.refusesEquality w = u.refusesEquality v := by
  cases u with
  | list vs => cases hu
  | dict es => cases hu
  | _ => simpa only [refusesEquality] using h.numbersRefuse_eq _

theorem Respelled.compare_eq (h : Respelled v w) (hu : u.isScalar = true) :
    u.compare w = u.compare v := by
  cases u with
  | bool b => exact h.compareNumbers_eq hu
  | int i => exact h.compareNumbers_eq hu
  | decimal d => exact h.compareNumbers_eq hu
  | float f => cases hu
  | list vs => cases hu
  | dict es => rfl
  | _ => cases h <;> rfl

theorem isScalar_folded (hu : u.isScalar = true) (fold : Bool) : (u.folded fold).isScalar = true := by
  cases u <;> first | rfl | cases hu

theorem folded_reread (fold : Bool) (v : Value) : v.reread.folded fold = (v.folded fold).reread := by
  cases v with
  | decimal d =>
      cases d with
      | finite n c e =>
          rw [reread, Decimal.reread]
          by_cases h : (Decimal.finite n c e).isIntegral = true
          · rw [if_pos h]
            exact (if_pos h).symm
          · rw [if_neg h]
            exact (if_neg h).symm
      | _ => rfl
  | _ => rfl

theorem isNull_reread (v : Value) : v.reread.isNull = v.isNull := by
  have h := respelled_reread v
  generalize v.reread = w at h
  cases h <;> rfl

end Value

namespace Operator

variable {o : Operator} {u c c' : Value}

/-- An operator that does not look at texts compares a value of a record with a condition as with the
one that is read back. -/
theorem holds_reread (ho : o.isTextual = false) (hu : u.isScalar = true) (fold : Bool) (c : Value) :
    o.holds fold u c.reread = o.holds fold u c := by
  have hfolded := Value.isScalar_folded hu fold
  have hrespelled := Value.respelled_reread (c.folded fold)
  have hequal : (u.folded fold).equalTo (c.folded fold).reread =
      (u.folded fold).equalTo (c.folded fold) := by
    rw [Value.equalTo, Value.equalTo, hrespelled.refusesEquality_eq hfolded,
      hrespelled.equals_eq hfolded]
  have hordered : ∀ wanted, (u.folded fold).ordered wanted (c.folded fold).reread =
      (u.folded fold).ordered wanted (c.folded fold) := fun wanted => by
    rw [Value.ordered, Value.ordered, hrespelled.compare_eq hfolded]
  have hcompares : o.comparesValues (u.folded fold) (c.reread.folded fold) =
      o.comparesValues (u.folded fold) (c.folded fold) := by
    rw [Value.folded_reread]
    cases o <;> simp only [comparesValues, hequal, hordered]
  rw [holds.eq_def, holds.eq_def, Value.isNull_reread, hcompares]
  -- What is left are questions, which have no condition, and operators on texts.
  cases o <;> first | rfl | cases ho

/-- Conditions that are read back as one are compared in the same way. -/
theorem holds_of_reread_eq (ho : o.isTextual = false) (hu : u.isScalar = true)
    (h : c'.reread = c.reread) (fold : Bool) : o.holds fold u c' = o.holds fold u c := by
  rw [← holds_reread ho hu fold c', h, holds_reread ho hu fold c]

end Operator

end Rowgate
