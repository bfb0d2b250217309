import Rowgate.Proofs.Number.DecimalText
import Rowgate.Proofs.Store.Same

/-!
# Values that are coerced again

Whoever takes a value brings it to the form of its field, and so does whoever gets it from there. The
first time settles what the value stands for (`Field.same_coerce`), so each time after it goes through
and gives an equal value. Numbers even go through their text: a decimal is written with all of its
digits, so the text makes the same number (`Field.coerce_text`).

In a record that happens to the value of each entry, and what stands under a name without a field
stays (`Entity.Restates`).
-/

namespace Rowgate

/-! ## Values -/

theorem Fits.eq_numeric {k : FieldKind} {d : Decimal} (h : Fits k (.decimal d)) : k = .numeric := by
  cases h
  rfl

namespace Field

variable {f : Field}

/-- A field of numbers makes the same of a decimal and of its text. -/
theorem coerce_text (hk : f.kind = .numeric) {n : Bool} {c : Nat} {e : Int}
    (h : Decimal.inRange c e = true) :
    f.coerce (.str (Decimal.finite n c e).text) = f.coerce (.decimal (.finite n c e)) := by
  have hread : Decimal.ofText? (Decimal.finite n c e).text = some (.finite n c e) := by
    rw [Decimal.ofText?, Decimal.text, String.toList_ofList]
    exact Decimal.read?_text h
  rw [coerce_of_not_null rfl, coerce_of_not_null rfl, coerceSome, coerceSome, hk]
  simp only [toNumber, hread, numberOfDecimal]

end Field

/-! ## Records -/

namespace Entity

variable {e : Entity} {r s : Record}

/-- Whether an entry says under the same name what another one says: an equal value if there is a field
of the name, else the very same value. -/
def Restates (e : Entity) (entry other : String × Value) : Prop :=
  entry.1 = other.1 ∧
    match fieldNamed? e.fields other.1 with
    | some _ => entry.2.equals other.2 = true
    | none => entry.2 = other.2

theorem restates_of_coerceFor {name : String} {v w : Value}
    (hv : ∀ f, fieldNamed? e.fields name = some f → f.Holds v)
    (h : coerceFor (fieldNamed? e.fields name) v = .ok w) : e.Restates (name, w) (name, v) := by
  refine ⟨rfl, ?_⟩
  cases hf : fieldNamed? e.fields name with
  | none =>
      rw [hf] at h
      exact (Except.ok.inj h).symm
  | some f =>
      rw [hf] at h
      exact (Field.same_coerce (hv f hf) h).equals

theorem restates_of_coerce (hr : e.Formed r) (h : e.coerce r = .ok s) :
    List.Forall₂ e.Restates s r := by
  induction r generalizing s with
  | nil =>
      cases h
      exact .nil
  | cons entry rest ih =>
      obtain ⟨name, v⟩ := entry
      obtain ⟨w, rest', hw, hrest, rfl⟩ := coerceEntries_cons h
      refine .cons ?_ (ih (fun x hx => hr x (List.mem_cons_of_mem _ hx)) hrest)
      exact restates_of_coerceFor (hr _ List.mem_cons_self) hw

/-- A record in the form of the fields has the same key when it is brought to that form again. -/
theorem sameKey_of_coerce (hr : e.Formed r) (h : e.coerce r = .ok s) :
    Value.sameKey (e.keyOf s) (e.keyOf r) = true := by
  obtain ⟨s', hs, hformed, hrow⟩ := coerce_of_formed hr
  cases h.symm.trans hs
  exact (sameKey_iff_place hformed hr).mpr (place_congr fun name _ => congrFun hrow name)

end Entity

/-- A value that has passed through a field passes through it again as an equal value, and if it is a
decimal, so does its text. A record that has passed through an entity passes through it again, with an
equal value in each entry, the very same one under names that the entity does not know, and it keeps its
key. -/
theorem passes_again {f : Field} {e : Entity} {x v : Value} {raw r : Record}
    (hv : f.coerce x = .ok v) (hr : e.coerce raw = .ok r) :
    (∃ w, f.coerce v = .ok w ∧ w.equals v = true ∧
      ∀ n c p, v = .decimal (.finite n c p) → Decimal.inRange c p = true →
        f.coerce (.str (Decimal.finite n c p).text) = .ok w) ∧
    ∃ s, e.coerce r = .ok s ∧ List.Forall₂ e.Restates s r ∧
      Value.sameKey (e.keyOf s) (e.keyOf r) = true := by
  have hholds := Field.coerce_holds hv
  have hformed := Entity.formed_coerceEntries hr
  obtain ⟨w, hw, -⟩ := Field.coerce_of_holds hholds
  obtain ⟨s, hs, -⟩ := Entity.coerce_of_formed hformed
  refine ⟨⟨w, hw, (Field.same_coerce hholds hw).equals, ?_⟩, s, hs,
    Entity.restates_of_coerce hformed hs, Entity.sameKey_of_coerce hformed hs⟩
  rintro n c p rfl hrange
  have hfits := hholds.resolve_left fun h => nomatch h
  rw [Field.coerce_text hfits.eq_numeric hrange, hw]

/-- A field of numbers with two digits after the point. -/
def amount : Field := ⟨"Amount", none, 10, 2, .numeric, false, true, false⟩

/-- What is booked under an amount, with a note that no field knows. -/
def booking : Entity := ⟨"Booking", none, false, [amount]⟩

theorem passes_again_booking :
    amount.coerce (.bool true) = .ok (.int 1) ∧
    booking.coerce [("Amount", .bool true), ("Note", .decimal (.nan false false 0))] =
      .ok [("Amount", .int 1), ("Note", .decimal (.nan false false 0))] ∧
    amount.coerce (.int 1) = .ok (.decimal (.finite false 1 0)) ∧
    (Value.decimal (.finite false 1 0)).equals (.int 1) = true ∧
    ∃ s, booking.coerce [("Amount", .int 1), ("Note", .decimal (.nan false false 0))] = .ok s ∧
      Value.sameKey (booking.keyOf s) [.int 1] = true := by
  have hv : amount.coerce (.bool true) = .ok (.int 1) := rfl
  have hr : booking.coerce [("Amount", .bool true), ("Note", .decimal (.nan false false 0))] =
      .ok [("Amount", .int 1), ("Note", .decimal (.nan false false 0))] := by rfl
  obtain ⟨⟨w, hw, hequals, -⟩, s, hs, -, hkey⟩ := passes_again hv hr
  cases hw
  exact ⟨hv, hr, rfl, hequals, s, hs, hkey⟩

end Rowgate
