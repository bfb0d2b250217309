import Rowgate.Proofs.Sql.Like
import Rowgate.Proofs.Value.Datum
import Rowgate.Sql.Clause

/-!
# What a clause says of a record

A clause is true of a row, false of it, or neither: a comparison with null and a search in null are
unknown. Conditions are combined as if the unknown stood between the false and the true, so a group
of which all members have to hold is as true as its least member, and one of which one is enough as
its greatest.

Values are compared by what they stand for. Data of unlike sorts are unequal and in no order.

`truthOn_combine` says that the normal form of a group means what the group means. It holds for all
three truth values, so a group may be reduced wherever it stands.
-/

namespace Rowgate.Sql

/-- How true a condition is of a row. -/
inductive Truth
  | no
  | unknown
  | yes
  deriving DecidableEq

namespace Truth

/-- A truth value that is known. -/
def ofBool (b : Bool) : Truth := if b then .yes else .no

/-- The lesser of two truth values. -/
def both : Truth → Truth → Truth
  | .no, _ => .no
  | .unknown, .no => .no
  | .unknown, _ => .unknown
  | .yes, t => t

/-- The greater of two truth values. -/
def either : Truth → Truth → Truth
  | .yes, _ => .yes
  | .unknown, .yes => .yes
  | .unknown, _ => .unknown
  | .no, t => t

/-- Two truth values as members of a group. -/
def join : Logic → Truth → Truth → Truth
  | .all => both
  | .any => either

/-- The truth of a group without members. -/
def start (l : Logic) : Truth := ofBool (Clause.neutral l)

theorem join_assoc (l : Logic) (a b c : Truth) :
    join l (join l a b) c = join l a (join l b c) := by
  cases l <;> cases a <;> cases b <;> cases c <;> rfl

theorem join_start_left (l : Logic) (a : Truth) : join l (start l) a = a := by
  cases l <;> rfl

theorem join_start_right (l : Logic) (a : Truth) : join l a (start l) = a := by
  cases l <;> cases a <;> rfl

/-- A member that decides a group leaves the others no say. -/
theorem join_decided_left (l : Logic) (a : Truth) :
    join l (ofBool !Clause.neutral l) a = ofBool !Clause.neutral l := by
  cases l <;> rfl

theorem join_decided_right (l : Logic) (a : Truth) :
    join l a (ofBool !Clause.neutral l) = ofBool !Clause.neutral l := by
  cases l <;> cases a <;> rfl

theorem ofBool_eq_yes (b : Bool) : (ofBool b == yes) = b := by
  cases b <;> rfl

theorem both_eq_yes (a b : Truth) : (both a b == yes) = (a == yes && b == yes) := by
  cases a <;> cases b <;> rfl

theorem either_eq_yes (a b : Truth) : (either a b == yes) = (a == yes || b == yes) := by
  cases a <;> cases b <;> rfl

end Truth

/-! ## Single conditions -/

/-- Whether two sides in an order, or in none, satisfy a relation. -/
def Relation.holds (r : Relation) (o : Option Ordering) : Bool :=
  match r with
  | .eq => o == some .eq
  | .neq => !(o == some .eq)
  | .lt => o == some .lt
  | .lte => o == some .lt || o == some .eq
  | .gt => o == some .gt
  | .gte => o == some .gt || o == some .eq

/-- The truth of a comparison; null stands for no datum. -/
def Relation.truth (r : Relation) : Option Datum → Option Datum → Truth
  | some a, some b => .ofBool (r.holds (a.order? b))
  | _, _ => .unknown

/-- The truth of a search for a pattern in a text. -/
def searchTruth (negated : Bool) (pattern : List Char) (v : Value) : Truth :=
  match v with
  | .str s => .ofBool (like pattern s.toList != negated)
  | _ => .unknown

namespace Clause

mutual

/-- The truth of a clause on a record. -/
def truthOn (r : Record) : Clause → Truth
  | .truth b => .ofBool b
  | .settled b => .ofBool b
  | .compare c relation fold v =>
    relation.truth ((Record.field r c.name).folded fold).datum? (v.folded fold).datum?
  | .like c negated fold pattern =>
    searchTruth negated (if fold then Text.lower pattern.toList else pattern.toList)
      ((Record.field r c.name).folded fold)
  | .missing c negated => .ofBool ((Record.field r c.name).isNull != negated)
  | .empty c negated =>
    (if negated then Relation.neq else .eq).truth (Record.field r c.name).datum? (some (.text []))
  | .group l cs => truthOfAll r l cs

/-- The truth of a group of clauses. -/
def truthOfAll (r : Record) (l : Logic) : List Clause → Truth
  | [] => .start l
  | c :: cs => .join l (truthOn r c) (truthOfAll r l cs)

end

/-! ## Groups in normal form -/

variable (r : Record) (l : Logic)

theorem truthOfAll_append (cs ds : List Clause) :
    truthOfAll r l (cs ++ ds) = Truth.join l (truthOfAll r l cs) (truthOfAll r l ds) := by
  induction cs with
  | nil => rw [List.nil_append, truthOfAll, Truth.join_start_left]
  | cons c cs ih => rw [List.cons_append, truthOfAll, truthOfAll, ih, Truth.join_assoc]

theorem truthOfAll_singleton (c : Clause) : truthOfAll r l [c] = truthOn r c := by
  rw [truthOfAll, truthOfAll, Truth.join_start_right]

/-- The members of a group stand for the group inside a group of its logic. -/
theorem truthOfAll_splice (c : Clause) : truthOfAll r l (splice l c) = truthOn r c := by
  cases c with
  | group l' cs =>
      rw [splice]
      split
      · next h => rw [h, truthOn]
      · rw [truthOfAll_singleton]
  | _ => exact truthOfAll_singleton r l _

theorem truthOfAll_flatMap_splice (cs : List Clause) :
    truthOfAll r l (cs.flatMap (splice l)) = truthOfAll r l cs := by
  induction cs with
  | nil => rfl
  | cons c cs ih =>
      rw [List.flatMap_cons, truthOfAll_append, truthOfAll_splice, ih, truthOfAll]

theorem truthOn_gather (cs : List Clause) : truthOn r (gather l cs) = truthOfAll r l cs := by
  match cs with
  | [] => rw [gather, truthOn, truthOfAll, Truth.start]
  | [c] => rw [gather, truthOfAll_singleton]
  | c :: d :: cs =>
      rw [gather, truthOn, truthOfAll_flatMap_splice]
      · exact fun h => nomatch h
      · exact fun _ h => nomatch h

theorem truthOn_of_isTruth {b : Bool} {c : Clause} (h : isTruth b c = true) :
    truthOn r c = .ofBool b := by
  cases c with
  | truth b' =>
      rw [isTruth, beq_iff_eq] at h
      rw [truthOn, h]
  | _ => cases h

/-- Constants that do not matter may be left out. -/
theorem truthOfAll_filter (cs : List Clause) :
    truthOfAll r l (cs.filter fun c => !isTruth (neutral l) c) = truthOfAll r l cs := by
  induction cs with
  | nil => rfl
  | cons c cs ih =>
      by_cases h : isTruth (neutral l) c = true
      · rw [List.filter_cons_of_neg (by rw [h]; decide), truthOfAll, truthOn_of_isTruth r h, ih]
        exact (Truth.join_start_left l _).symm
      · rw [List.filter_cons_of_pos (by simpa using h), truthOfAll, truthOfAll, ih]

/-- A constant that decides a group decides it wherever it stands. -/
theorem truthOfAll_of_decided {cs : List Clause} (h : cs.any (isTruth !neutral l) = true) :
    truthOfAll r l cs = .ofBool !neutral l := by
  induction cs with
  | nil => cases h
  | cons c cs ih =>
      rw [List.any_cons, Bool.or_eq_true] at h
      rw [truthOfAll]
      rcases h with h | h
      · rw [truthOn_of_isTruth r h, Truth.join_decided_left]
      · rw [ih h, Truth.join_decided_right]

/-- The clause that combines others means what the group of them means. -/
theorem truthOn_combine (cs : List Clause) : truthOn r (combine l cs) = truthOfAll r l cs := by
  rw [combine]
  split
  · next h =>
      rw [List.isEmpty_iff] at h
      rw [h, truthOn, truthOfAll, Truth.start]
  · split
    · next h => rw [truthOn, truthOfAll_of_decided r l h]
    · rw [truthOn_gather, truthOfAll_filter]

end Clause

end Rowgate.Sql
