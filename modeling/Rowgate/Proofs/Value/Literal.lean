import Rowgate.Proofs.Outcome
import Rowgate.Value.Text

/-!
# Values without a text

Every value has a literal and a plain text, unless an integer beyond the digit limit lies somewhere
in it (`plainText_eq_error_iff`). Texts, decimals and moments have a plain text in any case.
-/

namespace Rowgate

open Outcome

namespace Value

/-- Whether an integer beyond the digit limit lies somewhere in a value. -/
inductive HasLongInteger : Value → Prop
  | int {i : Int} (h : digitLimit < digitCount i.natAbs) : HasLongInteger (.int i)
  | item {v : Value} {vs : List Value} (h : v ∈ vs) (hv : HasLongInteger v) :
      HasLongInteger (.list vs)
  | entry {e : String × Value} {es : List (String × Value)} (h : e ∈ es)
      (hv : HasLongInteger e.2) : HasLongInteger (.dict es)

mutual

/-- A value has no literal only because of an integer in it. -/
theorem hasLongInteger_of_literal {fault : IntegerFault} :
    (v : Value) → v.literal = .error fault → v.HasLongInteger
  | .int i, h => by
      rw [literal, integerText] at h
      split at h
      · cases h
      · next hlong => exact .int (Nat.not_le.mp hlong)
  | .list items, h => by
      rw [literal] at h
      obtain ⟨v, hv, hlong⟩ := hasLongInteger_of_literals items (map_eq_error.mp h)
      exact .item hv hlong
  | .dict entries, h => by
      rw [literal] at h
      obtain ⟨e, he, hlong⟩ := hasLongInteger_of_entryLiterals entries (map_eq_error.mp h)
      exact .entry he hlong
  | .null, h | .bool _, h | .decimal _, h | .float _, h | .str _, h | .bytes _, h | .date _, h
  | .dateTime _, h | .time _, h => by
      rw [literal] at h
      cases h

theorem hasLongInteger_of_literals {fault : IntegerFault} :
    (vs : List Value) → literals vs = .error fault → ∃ v ∈ vs, v.HasLongInteger
  | [], h => by cases h
  | v :: vs, h => by
      rw [literals] at h
      rcases bind_eq_error.mp h with hv | ⟨_, _, h⟩
      · exact ⟨v, List.mem_cons_self, hasLongInteger_of_literal v hv⟩
      · rcases bind_eq_error.mp h with hvs | ⟨_, _, h⟩
        · obtain ⟨w, hw, hlong⟩ := hasLongInteger_of_literals vs hvs
          exact ⟨w, List.mem_cons_of_mem v hw, hlong⟩
        · cases h

theorem hasLongInteger_of_entryLiterals {fault : IntegerFault} :
    (es : List (String × Value)) → entryLiterals es = .error fault → ∃ e ∈ es, e.2.HasLongInteger
  | [], h => by cases h
  | (k, v) :: es, h => by
      rw [entryLiterals] at h
      rcases bind_eq_error.mp h with hv | ⟨_, _, h⟩
      · exact ⟨(k, v), List.mem_cons_self, hasLongInteger_of_literal v hv⟩
      · rcases bind_eq_error.mp h with hes | ⟨_, _, h⟩
        · obtain ⟨e, he, hlong⟩ := hasLongInteger_of_entryLiterals es hes
          exact ⟨e, List.mem_cons_of_mem _ he, hlong⟩
        · cases h

end

theorem literals_of_mem {v : Value} {vs : List Value} (h : v ∈ vs)
    (hv : ∃ fault, v.literal = .error fault) : ∃ fault, literals vs = .error fault := by
  induction vs with
  | nil => cases h
  | cons w vs ih =>
      rw [literals]
      cases hw : w.literal with
      | error fault => exact ⟨fault, rfl⟩
      | ok text =>
          rcases List.mem_cons.mp h with rfl | h
          · obtain ⟨fault, hfault⟩ := hv
            rw [hw] at hfault
            cases hfault
          · obtain ⟨fault, hfault⟩ := ih h
            exact ⟨fault, by rw [hfault]; rfl⟩

theorem entryLiterals_of_mem {e : String × Value} {es : List (String × Value)} (h : e ∈ es)
    (he : ∃ fault, e.2.literal = .error fault) : ∃ fault, entryLiterals es = .error fault := by
  induction es with
  | nil => cases h
  | cons first es ih =>
      obtain ⟨k, w⟩ := first
      rw [entryLiterals]
      cases hw : w.literal with
      | error fault => exact ⟨fault, rfl⟩
      | ok text =>
          rcases List.mem_cons.mp h with rfl | h
          · obtain ⟨fault, hfault⟩ := he
            rw [hw] at hfault
            cases hfault
          · obtain ⟨fault, hfault⟩ := ih h
            exact ⟨fault, by rw [hfault]; rfl⟩

theorem HasLongInteger.literal {v : Value} (h : v.HasLongInteger) :
    ∃ fault, v.literal = .error fault := by
  induction h with
  | @int i hlong =>
      refine ⟨.tooLongToWrite, ?_⟩
      rw [Value.literal, integerText, if_neg (Nat.not_le.mpr hlong)]
      rfl
  | item hmem _ ih =>
      obtain ⟨fault, hfault⟩ := literals_of_mem hmem ih
      exact ⟨fault, by rw [Value.literal, hfault]; rfl⟩
  | entry hmem _ ih =>
      obtain ⟨fault, hfault⟩ := entryLiterals_of_mem hmem ih
      exact ⟨fault, by rw [Value.literal, hfault]; rfl⟩

/-- A value has no text exactly if an integer that has none lies in it. -/
theorem plainText_eq_error_iff {v : Value} :
    (∃ fault, v.plainText = .error fault) ↔ v.HasLongInteger := by
  constructor
  · rintro ⟨fault, h⟩
    replace h := map_eq_error.mp h
    rw [plain.eq_def] at h
    split at h
    · cases h
    · cases h
    · cases h
    · cases h
    · cases h
    · exact hasLongInteger_of_literal _ h
  · intro h
    obtain ⟨fault, hfault⟩ := h.literal
    refine ⟨fault, map_eq_error.mpr ?_⟩
    cases h <;> exact hfault

end Value

end Rowgate
