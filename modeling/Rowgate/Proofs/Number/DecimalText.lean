import Rowgate.Number.DecimalText
import Rowgate.Proofs.Json.Numbers

/-!
# Decimals that are read back

A decimal is written in one of three ways: as digits alone, as digits with a point among them, or with
one digit before the point and an exponent. Each of them is a number of the JSON grammar that has the
coefficient and the exponent of the decimal (`exists_numeral`). So the reader of decimals, which knows
what to make of such a number, makes the same decimal of it again, with all the zeros it was written
with (`read?_text`).
-/

namespace Rowgate

namespace Decimal

open Json

/-! ## The exponent -/

theorem exists_power (p : Int) :
    ∃ w : Power, w.text = 'E' :: (if p < 0 then '-' else '+') :: digitsOf p.natAbs ∧ w.value = p := by
  have hsign : [if p < 0 then '-' else '+'] = [] ∨ [if p < 0 then '-' else '+'] = ['+'] ∨
      [if p < 0 then '-' else '+'] = ['-'] := by
    split <;> simp
  refine ⟨⟨'E', [if p < 0 then '-' else '+'], digitsOf p.natAbs, Or.inr rfl, hsign,
    fun _ => isDigit_of_mem_digitsOf, digitsOf_ne_nil _⟩, rfl, ?_⟩
  rw [Power.value, ofDigits_digitsOf]
  by_cases h : p < 0
  · simp [h, abs_of_neg h]
  · simp [h, abs_of_nonneg (Int.not_lt.mp h)]

/-! ## The layouts -/

/-- Which numbers of the grammar are texts of decimals: those without an exponent, and those with one
digit before the point. -/
def LaidOut (m : Numeral) : Prop := m.power = none ∨ m.whole.length = 1

section Layouts

variable {n : Bool} {c : Nat} {e : Int}

theorem exists_numeral_plain (he : e ≤ 0) :
    ∃ m : Numeral, m.text = plainDigits n c e ∧ m.negative = n ∧ m.coefficient = c ∧
      m.exponent = e ∧ m.power = none := by
  have hlength : (digitsOf c).length = digitCount c := rfl
  have hpos := digitCount_pos c
  by_cases hzero : e = 0
  · subst hzero
    have hstart : digitsOf c = ['0'] ∨ digitsOf c ≠ [] ∧ (digitsOf c).head? ≠ some '0' := by
      by_cases hc : c = 0
      · exact Or.inl (by rw [hc]; rfl)
      · exact Or.inr ⟨digitsOf_ne_nil c, head_digitsOf hc⟩
    refine ⟨⟨n, digitsOf c, [], none, fun _ => isDigit_of_mem_digitsOf, hstart, by simp⟩, ?_, rfl,
      ?_, rfl, rfl⟩
    · rw [plainDigits, withPoint, if_neg (by omega), if_pos (by omega)]
      simp [Numeral.text, Numeral.unsigned, Numeral.pointed, Numeral.powerText, zeros, hlength]
    · simp [Numeral.coefficient, ofDigits_digitsOf]
  · obtain ⟨whole, fraction, heq, hwhole, hfraction, hstart, hne, hvalue, hcount⟩ :=
      withPoint_eq c (show e < 0 by omega)
    obtain ⟨d, ds, rfl⟩ := List.exists_cons_of_ne_nil hne
    refine ⟨⟨n, whole, d :: ds, none, hwhole, hstart, hfraction⟩, ?_, rfl, hvalue, ?_, rfl⟩
    · simp [Numeral.text, Numeral.unsigned, Numeral.pointed, Numeral.powerText, plainDigits, heq]
    · simp only [Numeral.exponent, Option.map_none, Option.getD_none]
      omega

theorem exists_numeral_scientific (n : Bool) (c : Nat) (e : Int) :
    ∃ m : Numeral,
      m.text = sign n ++ withPoint (digitsOf c) 1 ++
          'E' :: (if digitCount c + e - 1 < 0 then '-' else '+') ::
            digitsOf (digitCount c + e - 1).natAbs ∧
        m.negative = n ∧ m.coefficient = c ∧ m.exponent = e ∧ m.whole.length = 1 := by
  obtain ⟨w, htext, hpower⟩ := exists_power (digitCount c + e - 1)
  have hdigits : ∀ d ∈ digitsOf c, d.isDigit = true := fun _ => isDigit_of_mem_digitsOf
  have hcount : (digitsOf c).length = digitCount c := rfl
  have hvalue := ofDigits_digitsOf c
  have hhead := @head_digitsOf c
  obtain ⟨d, ds, hds⟩ := List.exists_cons_of_ne_nil (digitsOf_ne_nil c)
  rw [hds] at hdigits hcount hvalue hhead ⊢
  have hstart : [d] = ['0'] ∨ [d] ≠ [] ∧ [d].head? ≠ some '0' := by
    by_cases hd : d = '0'
    · exact Or.inl (by rw [hd])
    · exact Or.inr (by simpa using hd)
  refine ⟨⟨n, [d], ds, some w, ?_, hstart, ?_⟩, ?_, rfl, hvalue, ?_, rfl⟩
  · simpa using hdigits d List.mem_cons_self
  · exact fun x hx => hdigits x (List.mem_cons_of_mem d hx)
  · cases ds with
    | nil =>
        simp [Numeral.text, Numeral.unsigned, Numeral.pointed, Numeral.powerText, withPoint, zeros,
          htext]
    | cons d' ds =>
        rw [withPoint, if_neg (by omega), if_neg (by simp only [List.length_cons]; omega)]
        simp [Numeral.text, Numeral.unsigned, Numeral.pointed, Numeral.powerText, htext]
  · simp only [Numeral.exponent, Option.map_some, Option.getD_some, hpower]
    simp only [List.length_cons] at hcount
    omega

/-- What is written for a decimal is a number of the grammar with its coefficient and exponent. -/
theorem exists_numeral (n : Bool) (c : Nat) (e : Int) :
    ∃ m : Numeral, m.text = finiteDigits n c e ∧ m.negative = n ∧ m.coefficient = c ∧
      m.exponent = e ∧ LaidOut m := by
  rw [finiteDigits]
  split
  · next h =>
      obtain ⟨m, htext, hn, hc, he, hpower⟩ := exists_numeral_plain (n := n) (c := c) h.1
      exact ⟨m, htext, hn, hc, he, Or.inl hpower⟩
  · obtain ⟨m, htext, hn, hc, he, hwhole⟩ := exists_numeral_scientific n c e
    refine ⟨m, ?_, hn, hc, he, Or.inr hwhole⟩
    rw [htext]

end Layouts

/-! ## Reading -/

/-- Whether a character can stand in a number. -/
def Notes (c : Char) : Prop := c.isDigit = true ∨ c ∈ ['-', '+', '.', 'e', 'E']

theorem Notes.visible {c : Char} (h : Notes c) : Text.Visible c ∧ c ≠ '_' := by
  rcases h with h | h
  · have hc := isDigit_iff.mp h
    refine ⟨⟨by omega, by omega⟩, ?_⟩
    rintro rfl
    exact absurd h (by decide)
  · simp only [List.mem_cons, List.not_mem_nil, or_false] at h
    rcases h with rfl | rfl | rfl | rfl | rfl <;> exact ⟨by decide, by decide⟩

theorem notes_of_mem_text {m : Numeral} {c : Char} (h : c ∈ m.text) : Notes c := by
  have hpointed : c ∈ Numeral.pointed m.fraction → Notes c := by
    intro hc
    cases hf : m.fraction with
    | nil => simp [hf, Numeral.pointed] at hc
    | cons d ds =>
        rw [hf, Numeral.pointed] at hc
        rcases List.mem_cons.mp hc with rfl | hc
        · exact Or.inr (by simp)
        · exact Or.inl (m.areFraction c (hf ▸ hc))
  have hpower : c ∈ m.powerText → Notes c := by
    intro hc
    cases hp : m.power with
    | none => simp [Numeral.powerText, hp] at hc
    | some p =>
        simp only [Numeral.powerText, hp, Option.map_some, Option.getD_some, Power.text,
          List.mem_cons, List.mem_append] at hc
        rcases hc with rfl | hc | hc
        · rcases p.isMark with hmark | hmark <;> exact Or.inr (by simp [hmark])
        · rcases p.isSign with hsign | hsign | hsign <;> rw [hsign] at hc <;> simp at hc
          all_goals exact Or.inr (by simp [hc])
        · exact Or.inl (p.areDigits c hc)
  simp only [Numeral.text, Numeral.unsigned, List.mem_append] at h
  rcases h with h | h | h | h
  · cases hn : m.negative <;> simp [hn, sign] at h
    exact Or.inr (by simp [h])
  · exact Or.inl (m.areWhole c h)
  · exact hpointed h
  · exact hpower h

theorem asciiDigits?_of_notes {cs : List Char} (h : ∀ c ∈ cs, Notes c) :
    asciiDigits? cs = some cs := by
  induction cs with
  | nil => rfl
  | cons c cs ih =>
      obtain ⟨hc, hcs⟩ := List.forall_mem_cons.mp h
      obtain ⟨hvisible, hline⟩ := hc.visible
      have hlt : c.toNat < 128 := by
        have := hvisible.2
        omega
      rw [asciiDigits?, if_pos hlt, ih hcs]
      · rfl
      · exact hline

theorem splitSign_text (m : Numeral) : splitSign m.text = (m.negative, m.unsigned) := by
  rw [Numeral.text]
  cases m.negative with
  | true => rfl
  | false =>
      rw [sign, if_neg (by decide), List.nil_append, Numeral.unsigned]
      cases hw : m.whole with
      | nil => exact absurd hw m.whole_ne_nil
      | cons d ds =>
          have hd := m.areWhole d (by simp [hw])
          rw [List.cons_append, splitSign.eq_def]
          split
          · next heq =>
              cases (List.cons.inj heq).1
              exact absurd hd (by decide)
          · next heq =>
              cases (List.cons.inj heq).1
              exact absurd hd (by decide)
          · rfl

/-- A number of the grammar is read as the decimal with its digits. -/
theorem read?_numeral (m : Numeral) :
    read? m.text = if inRange m.coefficient m.exponent then
      some (.finite m.negative m.coefficient m.exponent) else none := by
  have hnotes : ∀ c ∈ m.text, Notes c := fun _ => notes_of_mem_text
  rw [read?, Text.trim_of_visible fun c hc => (hnotes c hc).visible.1,
    asciiDigits?_of_notes hnotes, Option.bind_some, splitSign_text]
  exact m.decimal_unsigned m.negative

/-- The text of a decimal is read as the same decimal. -/
theorem read?_text {n : Bool} {c : Nat} {e : Int} (h : inRange c e = true) :
    read? (finiteDigits n c e) = some (.finite n c e) := by
  obtain ⟨m, htext, hn, hc, he, -⟩ := exists_numeral n c e
  rw [← htext, read?_numeral, hn, hc, he, if_pos h]

end Decimal

end Rowgate
