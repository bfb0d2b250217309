/-!
# Outcomes

How outcomes combine, and what is known of one that does not fail.
-/

namespace Rowgate

namespace Outcome

variable {ε α β : Type} {P : α → Prop} {Q : β → Prop} {x : Except ε α} {f : α → Except ε β}

theorem bind_eq_ok {b : β} : x.bind f = .ok b ↔ ∃ a, x = .ok a ∧ f a = .ok b := by
  cases x with
  | error e => simp [Except.bind]
  | ok a => simp [Except.bind]

theorem bind_eq_error {e : ε} :
    x.bind f = .error e ↔ x = .error e ∨ ∃ a, x = .ok a ∧ f a = .error e := by
  cases x with
  | error e' => simp [Except.bind]
  | ok a => simp [Except.bind]

theorem map_eq_error {g : α → β} {e : ε} : x.map g = .error e ↔ x = .error e := by
  cases x with
  | error e' => simp [Except.map]
  | ok a => simp [Except.map]

theorem ok_of_mapError {ε' : Type} {g : ε → ε'} {a : α} (h : x.mapError g = .ok a) : x = .ok a := by
  cases x with
  | error e => cases h
  | ok b =>
      cases h
      rfl

theorem toOption_eq_some_iff {a : α} : x.toOption = some a ↔ x = .ok a := by
  cases x <;> simp [Except.toOption]

/-- Each of several results comes out of one of the things that they are about. -/
theorem exists_of_mem_mapM {f : α → Except ε β} {as : List α} {bs : List β}
    (h : as.mapM f = .ok bs) {b : β} (hb : b ∈ bs) : ∃ a ∈ as, f a = .ok b := by
  induction as generalizing bs with
  | nil =>
      cases h
      cases hb
  | cons a as ih =>
      rw [List.mapM_cons] at h
      obtain ⟨b', hb', h⟩ := bind_eq_ok.mp h
      obtain ⟨bs', hbs', h⟩ := bind_eq_ok.mp h
      cases h
      rcases List.mem_cons.mp hb with rfl | hb
      · exact ⟨a, List.mem_cons_self, hb'⟩
      · obtain ⟨x, hx, hfx⟩ := ih hbs' hb
        exact ⟨x, List.mem_cons_of_mem a hx, hfx⟩

/-- The error of an outcome, if it is one. -/
def error? : Except ε α → Option ε
  | .ok _ => none
  | .error e => some e

theorem error?_eq_some_iff {e : ε} : error? x = some e ↔ x = .error e := by
  cases x <;> simp [error?]

theorem error?_map (x : Except ε α) (g : α → β) : error? (x.map g) = error? x := by
  cases x <;> rfl

/-- Of two things that are done one after the other, the first one that goes wrong is the error. -/
theorem error?_both {γ : Type} (x : Except ε α) (y : Except ε β) (g : α → β → γ) :
    error? (x.bind fun a => y.bind fun b => .ok (g a b)) = (error? x).or (error? y) := by
  cases x with
  | error e => rfl
  | ok a => cases y <;> rfl

/-- Whether an outcome is a result with a property. -/
def Sure (P : α → Prop) (x : Except ε α) : Prop := ∃ a, x = .ok a ∧ P a

theorem sure_ok {a : α} (h : P a) : Sure P (.ok a : Except ε α) := ⟨a, rfl, h⟩

theorem Sure.bind (h : Sure P x) (hf : ∀ a, P a → Sure Q (f a)) : Sure Q (x.bind f) := by
  obtain ⟨a, rfl, hpa⟩ := h
  exact hf a hpa

theorem Sure.map {g : α → β} (h : Sure P x) (hg : ∀ a, P a → Q (g a)) : Sure Q (x.map g) := by
  obtain ⟨a, rfl, hpa⟩ := h
  exact sure_ok (hg a hpa)

end Outcome

end Rowgate
