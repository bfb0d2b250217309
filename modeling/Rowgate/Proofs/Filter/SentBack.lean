import Rowgate.Proofs.Filter.RoundTrip
import Rowgate.Proofs.Store.Complete
import Rowgate.Proofs.Store.Operators
import Rowgate.Proofs.Store.Same
import Rowgate.Proofs.Value.Sent

/-!
# Asking for what one was told

A client that has read the value of a field asks for the records that have it with a test for equality,
whose condition is what it has read: a text where the field has a moment or octets, an integer where it
has an integral decimal. The field brings the condition back to a value of which the same is read, and
operators cannot tell two such values apart (`Operator.holds_of_reread_eq`). So the compiled test asks
for the very value that was sent (`accepts_received`), which every record that has it answers with yes,
whether the case of letters counts or not (`Fits.holds_eq_of_datum`).
-/

namespace Rowgate

open Outcome

/-- The filter for the records that have a value in a field. -/
def Filter.equalTo (field : String) (condition : Value) (ignoreCase : Bool) : Filter :=
  .leaf (.of field .eq condition ignoreCase)

/-- Values that stand for the same satisfy the test for equality. -/
theorem Fits.holds_eq_of_datum {k : FieldKind} {v w : Value} (hv : Fits k v) (hw : Fits k w)
    (h : v.datum? = w.datum?) (fold : Bool) : Operator.eq.holds fold v w = .ok true := by
  have hsame : (v.folded fold).datum? = (w.folded fold).datum? := by
    by_cases hk : k = .string
    -- texts that stand for the same are the same text, in small letters as well
    · subst hk
      cases hv with
      | str s =>
          cases hw with
          | str t =>
              cases String.toList_inj.mp (Text.codes_inj.mp (Datum.text.inj (Option.some.inj h)))
              rfl
    · rw [Value.folded_of_not_string hv hk, Value.folded_of_not_string hw hk, h]
  have hequals : (v.folded fold).equals (w.folded fold) = true :=
    Value.equals_of_sameInKey ((sameInKey_iff (hv.folded fold) (hw.folded fold)).mpr hsame)
  rw [holds_eq rfl hv hw fold, Sql.Relation.holds,
    ← equals_eq (hv.folded fold) (hw.folded fold), hequals]

section SentBack

variable {f : Field} {v w : Value} {ignoreCase : Bool}

/-- A record with a value in the form of the field satisfies the test for that value. -/
theorem Field.holds_eq_coerce (hv : Fits f.kind v) (hw : f.coerce v = .ok w) (fold : Bool) :
    Operator.eq.holds fold w v = .ok true := by
  obtain ⟨_, hw', hholds, hnull, hdatum, -⟩ := coerce_of_holds (.inr hv)
  cases hw.symm.trans hw'
  have hfits : Fits f.kind w := hholds.resolve_left fun heq => by
    rw [heq, hv.not_null] at hnull
    cases hnull
  exact hfits.holds_eq_of_datum hv hdatum fold

/-- The condition that a client has read is taken by the field, as a value of which the same is read. -/
theorem Test.exists_condition_received (hv : Fits f.kind v) (hreturns : v.Returns) :
    ∃ w, (Test.of f.name .eq v.received ignoreCase).condition (some f) = .ok w ∧
      w.reread = v.reread := by
  obtain ⟨w, hw, hreread, -⟩ := Field.coerce_received (.inr hv) hreturns
  refine ⟨w, ?_, hreread⟩
  rw [condition, of, hv.isNull_received, coerced, coerceFor, hw]
  rfl

/-- A test with a condition that a client has read is compiled to a predicate that asks for the value
that was sent. -/
theorem accepts_received {s : FilterScope} (hfield : fieldNamed? s.fields f.name = some f)
    (hs : s.operators.contains .eq = true) (hv : Fits f.kind v) (hreturns : v.Returns) :
    ∃ p, (Predicate.ofFilter s (.equalTo f.name v.received ignoreCase)).result = .ok p ∧
      ∀ r u, f.coerce (Record.field r f.name) = .ok u →
        p.accepts r = Operator.eq.holds (ignoreCase && isTextual (some f)) u v := by
  obtain ⟨w, hw, hreread⟩ := Test.exists_condition_received hv hreturns
  refine ⟨_, ofTest_of_condition (t := .of f.name .eq v.received ignoreCase) rfl hs hfield hw,
    fun r u hu => ?_⟩
  have hscalar : u.isScalar = true := by
    rcases Field.coerce_holds hu with rfl | hfits
    · rfl
    · exact hfits.isScalar
  show (Predicate.test f.name (some f) .eq w _).accepts r = _
  rw [Predicate.accepts, coerceFor, hu]
  exact Operator.holds_of_reread_eq rfl hscalar hreread _

end SentBack

/-- A filter for a value is read from structured data. -/
theorem Filter.read_equalTo {name : String} (hname : name ≠ "") (w : Value) (ignoreCase : Bool) :
    Filter.read (equalTo name w ignoreCase).toValue = .ok (equalTo name w ignoreCase) := by
  have htidy : (equalTo name w ignoreCase).Tidy fun _ => True := .leaf ⟨hname, rfl⟩ trivial
  have hheight : (equalTo name w ignoreCase).height ≤ depthLimit := by
    rw [equalTo, leaf, height, membersHeight, depthLimit]
    decide
  rw [Filter.read, ofValue, nodeOf_toValue htidy hheight]
  rfl

/-- A value of a field that can be sent back makes a filter for the records that have it: its JSON text is
read as the condition of a test, which is read from structured data and compiled wherever the field is
known. What is compiled asks for the value itself, and every record with the value is accepted. -/
theorem sent_back_as_filter {f : Field} {v : Value} (hname : f.name ≠ "") (hv : f.Gives v)
    (hreturns : v.Returns) :
    ∃ text w, Json.write v = .ok text ∧ Json.read text.toList = .ok w ∧
      ∀ ignoreCase,
        Filter.read (Filter.equalTo f.name w ignoreCase).toValue =
            .ok (Filter.equalTo f.name w ignoreCase) ∧
          ∀ s : FilterScope, fieldNamed? s.fields f.name = some f →
            s.operators.contains .eq = true →
            ∃ p, (Predicate.ofFilter s (.equalTo f.name w ignoreCase)).result = .ok p ∧
              (∀ r, Record.field r f.name = v → p.accepts r = .ok true) ∧
              ∀ r u, f.coerce (Record.field r f.name) = .ok u →
                p.accepts r = Operator.eq.holds (ignoreCase && isTextual (some f)) u v := by
  have hfits := hv.fits
  have hdepth : v.depth ≤ Json.depthLimit := by
    rw [Field.Holds.depth_eq (f := f) (.inr hfits)]
    decide
  obtain ⟨text, htext, hread⟩ := hreturns.read_write hdepth
  refine ⟨text, v.received, htext, hread, fun ignoreCase =>
    ⟨Filter.read_equalTo hname _ _, fun s hfield hs => ?_⟩⟩
  obtain ⟨p, hp, haccepts⟩ := accepts_received hfield hs hfits hreturns
  refine ⟨p, hp, fun r hr => ?_, haccepts⟩
  obtain ⟨u, hu, -⟩ := Field.coerce_of_holds (.inr hfits)
  rw [haccepts r u (by rw [hr, hu])]
  exact Field.holds_eq_coerce hfits hu _

/-- Negative zero is read as the integer zero, which finds it again. -/
theorem sent_back_as_filter_weight :
    weight.name ≠ "" ∧ weight.Gives (.decimal (.finite true 0 (-1))) ∧
    (Value.decimal (.finite true 0 (-1))).Returns ∧
    Json.write (.decimal (.finite true 0 (-1))) = .ok "0" ∧
    ∃ p, (Predicate.ofFilter ⟨[weight], Operator.all, true⟩
        (.equalTo "Weight" (.int 0) false)).result = .ok p ∧
      p.accepts [("Weight", .decimal (.finite true 0 (-1)))] = .ok true := by
  have hname : weight.name ≠ "" := by decide
  have hv : weight.Gives (.decimal (.finite true 0 (-1))) :=
    ⟨rfl, .decimal (.finite true 0 (-1)), rfl⟩
  have hreturns : (Value.decimal (.finite true 0 (-1))).Returns :=
    .decimal (by decide) fun _ => by decide
  have hwrite : Json.write (.decimal (.finite true 0 (-1))) = .ok "0" := by decide +kernel
  have hzero : Json.read "0".toList = .ok (.int 0) := by rfl
  obtain ⟨text, w, htext, hread, hfilter⟩ := sent_back_as_filter hname hv hreturns
  cases hwrite.symm.trans htext
  cases hzero.symm.trans hread
  obtain ⟨p, hp, haccepts, -⟩ :=
    (hfilter false).2 ⟨[weight], Operator.all, true⟩ rfl (by decide)
  exact ⟨hname, hv, hreturns, hwrite, p, hp, haccepts _ rfl⟩

end Rowgate
