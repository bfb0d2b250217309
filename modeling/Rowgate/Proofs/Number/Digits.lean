import Rowgate.Json.Reader
import Rowgate.Json.Writer
import Rowgate.Proofs.Number.Magnitude

/-!
# Digits that are read back

Numbers are written in decimal digits and read from them by three readers: the one for counts, the
one for numbers inside JSON, and the one for decimals that the latter hands its digits to. What all
of them need to know is here: the digits of a number are digits, there is at least one, and a zero
stands first only if it stands alone; and a run of digits ends where something else begins.
-/

namespace Rowgate

/-! ## Runs of digits -/

/-- Whether no digit comes first. -/
def startsNoDigit (cs : List Char) : Prop := ∀ c ∈ cs.head?, c.isDigit = false

section Runs

variable {ds rest : List Char}

theorem takeWhile_digits (hds : ∀ c ∈ ds, c.isDigit = true) (hrest : startsNoDigit rest) :
    (ds ++ rest).takeWhile Char.isDigit = ds := by
  rw [List.takeWhile_append_of_pos hds]
  cases rest with
  | nil => rw [List.takeWhile_nil, List.append_nil]
  | cons c cs =>
      rw [List.takeWhile_cons_of_neg (by rw [hrest c rfl]; exact Bool.false_ne_true),
        List.append_nil]

theorem dropWhile_digits (hds : ∀ c ∈ ds, c.isDigit = true) (hrest : startsNoDigit rest) :
    (ds ++ rest).dropWhile Char.isDigit = rest := by
  rw [List.dropWhile_append_of_pos hds]
  cases rest with
  | nil => rfl
  | cons c cs => rw [List.dropWhile_cons_of_neg (by rw [hrest c rfl]; exact Bool.false_ne_true)]

end Runs

theorem isDigit_of_mem_digitsOf {n : Nat} {c : Char} (h : c ∈ digitsOf n) : c.isDigit = true :=
  Nat.isDigit_of_mem_toDigits (by omega) (by omega) h

theorem digitsOf_ne_nil (n : Nat) : digitsOf n ≠ [] := Nat.toDigits_ne_nil

/-- The first digit of a number other than zero is no zero. -/
theorem head_digitsOf {n : Nat} (h : n ≠ 0) : (digitsOf n).head? ≠ some '0' := by
  induction n using Nat.strongRecOn with
  | ind n ih =>
      by_cases hn : n < 10
      · rw [digitsOf, Nat.toDigits_of_lt_base hn, List.head?_cons, Ne, Option.some_inj,
          Nat.digitChar_eq_zero]
        exact h
      · rw [digitsOf, Nat.toDigits_of_base_le (by omega) (by omega), List.head?_append_of_ne_nil]
        · exact ih (n / 10) (by omega) (by omega)
        · exact Nat.toDigits_ne_nil

/-- A number with its digits in a run that may begin with zeros. -/
theorem ofDigits_zeros_append (k : Nat) (ds : List Char) :
    ofDigits (Decimal.zeros k ++ ds) = ofDigits ds := by
  rw [ofDigits, Decimal.zeros, Nat.ofDigitChars_append, Nat.ofDigitChars_replicate_zero,
    Nat.mul_zero]
  rfl

/-- The size of a number by the number of its digits. -/
theorem le_digitCount {n k : Nat} (h : 10 ^ k ≤ n) : k < digitCount n :=
  (Nat.pow_lt_pow_iff_right (by omega)).mp (Nat.lt_of_le_of_lt h (lt_pow_digitCount n))

/-! ## Integers -/

/-- A power of ten has more digits than can be written from the limit on. -/
theorem digitLimit_lt_pow {n : Nat} (h : digitLimit ≤ n) :
    digitLimit < digitCount ((10 ^ n : Int)).natAbs := by
  have hten : (10 : Int).natAbs = 10 := rfl
  rw [Int.natAbs_pow, hten]
  exact le_digitCount (Nat.pow_le_pow_right (by decide) h)

theorem integerOfDigits_digitsOf {n : Nat} (h : digitCount n ≤ digitLimit) (negative : Bool) :
    integerOfDigits negative (digitsOf n) = .ok (if negative then -(n : Int) else n) := by
  rw [integerOfDigits, if_neg (by rw [← digitCount]; omega), ofDigits_digitsOf]

theorem isDigit_iff {c : Char} : c.isDigit = true ↔ 48 ≤ c.toNat ∧ c.toNat ≤ 57 := by
  rw [Char.isDigit, Bool.and_eq_true, decide_eq_true_eq, decide_eq_true_eq]
  exact Iff.rfl

theorem groupedDigits?_of_isDigit {ds : List Char} (hne : ds ≠ [])
    (hds : ∀ c ∈ ds, c.isDigit = true) : groupedDigits? ds = some ds := by
  match ds with
  | [c] => rw [groupedDigits?, if_pos (hds c List.mem_cons_self)]
  | c :: d :: ds =>
      have hd : d ≠ '_' := by
        rintro rfl
        exact absurd (hds '_' (by simp)) (by decide)
      have hrest : groupedDigits? (d :: ds) = some (d :: ds) :=
        groupedDigits?_of_isDigit (List.cons_ne_nil d ds)
          fun x hx => hds x (List.mem_cons_of_mem _ hx)
      rw [groupedDigits?, if_pos (hds c List.mem_cons_self), hrest]
      · rfl
      · exact fun h => nomatch h
      · intro rest h
        exact hd (List.cons.inj h).1

theorem asciiForm_of_isDigit {c : Char} (h : c.isDigit = true) : asciiForm c = c := by
  have hc := isDigit_iff.mp h
  rw [asciiForm, if_pos (by omega)]

theorem digitValue?_of_isDigit {d : Char} (h : d.isDigit = true) :
    Text.digitValue? d = some (d.toNat - '0'.toNat) := by
  have hd := isDigit_iff.mp h
  have hfirst : (decide (0x30 ≤ d.toNat) && decide (d.toNat < 0x30 + 10)) = true := by
    rw [Bool.and_eq_true, decide_eq_true_eq, decide_eq_true_eq]
    omega
  have hfound : Text.digitZeros.find?
      (fun first => decide (first ≤ d.toNat) && decide (d.toNat < first + 10)) = some 0x30 :=
    List.find?_cons_of_pos hfirst
  rw [Text.digitValue?, hfound]
  rfl

theorem isDecimal_of_isDigit {d : Char} (h : d.isDigit = true) : Text.isDecimal d = true := by
  rw [Text.isDecimal, digitValue?_of_isDigit h]
  rfl

theorem not_isAsciiBlank_of_isDigit {c : Char} (h : c.isDigit = true) :
    Text.isAsciiBlank c = false := by
  have hc := isDigit_iff.mp h
  rw [Text.isAsciiBlank, ← Bool.not_eq_true, Text.Ranges.holds_iff]
  rintro ⟨range, hrange, hle⟩
  simp only [List.mem_cons, List.not_mem_nil, or_false] at hrange
  rcases hrange with rfl | rfl <;> omega

theorem Text.trimBoth_of_forall {p : Char → Bool} {cs : List Char} (h : ∀ c ∈ cs, p c = false) :
    Text.trimBoth p cs = cs := by
  have hdrop : ∀ ds : List Char, (∀ c ∈ ds, p c = false) → ds.dropWhile p = ds := by
    intro ds hds
    cases ds with
    | nil => rfl
    | cons d ds =>
        rw [List.dropWhile_cons_of_neg (by rw [hds d List.mem_cons_self]; exact Bool.false_ne_true)]
  rw [Text.trimBoth, hdrop cs h, hdrop _ fun c hc => h c (List.mem_reverse.mp hc),
    List.reverse_reverse]

/-- Whether a character is printed and belongs to ASCII. No reader trims such a character. -/
def Text.Visible (c : Char) : Prop := 0x20 < c.toNat ∧ c.toNat < 0x7f

instance (c : Char) : Decidable (Text.Visible c) :=
  inferInstanceAs (Decidable (_ ∧ _))

theorem Text.Visible.not_isBlank {c : Char} (h : Text.Visible c) : Text.isBlank c = false := by
  rw [Visible] at h
  rw [isBlank, ← Bool.not_eq_true, Ranges.holds_iff]
  intro ⟨range, hrange, hle⟩
  simp only [blanks, List.mem_cons, List.not_mem_nil, or_false] at hrange
  rcases hrange with rfl | rfl | rfl | rfl | rfl | rfl | rfl | rfl | rfl | rfl <;> omega

theorem Text.Visible.not_isHalf {c : Char} (h : Text.Visible c) : Text.isHalf c = false := by
  rw [Visible] at h
  rw [← Bool.not_eq_true, isHalf_iff]
  omega

theorem Text.Visible.utf8Size {c : Char} (h : Text.Visible c) : c.utf8Size = 1 := by
  rw [Char.utf8Size_eq_one_iff, UInt32.le_iff_toNat_le]
  exact Nat.le_of_lt_succ (Nat.lt_trans h.2 (by decide))

theorem Text.trim_of_visible {cs : List Char} (h : ∀ c ∈ cs, Text.Visible c) :
    Text.trim cs = cs :=
  Text.trimBoth_of_forall fun c hc => (h c hc).not_isBlank

theorem splitSign_of_isDigit {ds : List Char} (hds : ∀ c ∈ ds, c.isDigit = true) :
    splitSign ds = (false, ds) := by
  rw [splitSign.eq_def]
  split
  · exact absurd (hds '-' List.mem_cons_self) (by decide)
  · exact absurd (hds '+' List.mem_cons_self) (by decide)
  · rfl

/-- The digits of a number within the limit are read as that number. -/
theorem readInteger_digitsOf {n : Nat} (h : digitCount n ≤ digitLimit) :
    readInteger (digitsOf n) = .ok n := by
  have hdigits : ∀ c ∈ digitsOf n, c.isDigit = true := fun _ => isDigit_of_mem_digitsOf
  have hascii : (digitsOf n).map asciiForm = digitsOf n :=
    (List.map_congr_left fun c hc => asciiForm_of_isDigit (hdigits c hc)).trans (List.map_id _)
  rw [readInteger, hascii,
    Text.trimBoth_of_forall fun c hc => not_isAsciiBlank_of_isDigit (hdigits c hc),
    splitSign_of_isDigit hdigits]
  simp only [groupedDigits?_of_isDigit (digitsOf_ne_nil n) hdigits]
  exact integerOfDigits_digitsOf h false

/-! ## Decimals -/

namespace Decimal

variable {n : Bool} {c : Nat} {e : Int}

/-- A decimal that is no integer has a coefficient other than zero and a negative exponent. -/
theorem of_not_isIntegral (h : (finite n c e).isIntegral = false) : c ≠ 0 ∧ e < 0 := by
  simp only [isIntegral, Bool.or_eq_false_iff, decide_eq_false_iff_not, beq_eq_false_iff_ne] at h
  exact ⟨h.1.2, by omega⟩

/-- The digits of a decimal with a negative exponent: those before the point, of which a zero stands
first only if it stands alone, and those after it, as many as the exponent says. -/
theorem withPoint_eq (c : Nat) (he : e < 0) :
    ∃ whole fraction, withPoint (digitsOf c) (digitCount c + e) = whole ++ '.' :: fraction ∧
      (∀ d ∈ whole, d.isDigit = true) ∧ (∀ d ∈ fraction, d.isDigit = true) ∧
      (whole = ['0'] ∨ whole ≠ [] ∧ whole.head? ≠ some '0') ∧ fraction ≠ [] ∧
      ofDigits (whole ++ fraction) = c ∧ (fraction.length : Int) = -e := by
  have hdigits : ∀ d ∈ digitsOf c, d.isDigit = true := fun _ => isDigit_of_mem_digitsOf
  have hlength : (digitsOf c).length = digitCount c := rfl
  have hpos := digitCount_pos c
  rw [withPoint]
  by_cases hplace : (digitCount c : Int) + e ≤ 0
  · refine ⟨['0'], zeros (-((digitCount c : Int) + e)).toNat ++ digitsOf c, ?_, ?_, ?_, Or.inl rfl,
      ?_, ?_, ?_⟩
    · rw [if_pos hplace]
      rfl
    · exact List.forall_mem_singleton.mpr rfl
    · intro d hd
      rcases List.mem_append.mp hd with hd | hd
      · rw [List.eq_of_mem_replicate hd]
        decide
      · exact hdigits d hd
    · exact List.append_ne_nil_of_right_ne_nil _ (digitsOf_ne_nil c)
    · show ofDigits (zeros 1 ++ (zeros _ ++ digitsOf c)) = c
      rw [ofDigits_zeros_append, ofDigits_zeros_append, ofDigits_digitsOf]
    · rw [List.length_append, zeros, List.length_replicate, hlength]
      omega
  · have hlt : ((digitCount c : Int) + e).toNat < (digitsOf c).length := by omega
    have hc : c ≠ 0 := by
      rintro rfl
      exact hplace (show ((1 : Nat) : Int) + e ≤ 0 by omega)
    have hhead := head_digitsOf hc
    refine ⟨(digitsOf c).take ((digitCount c : Int) + e).toNat,
      (digitsOf c).drop ((digitCount c : Int) + e).toNat, ?_, ?_, ?_, Or.inr ⟨?_, ?_⟩, ?_, ?_, ?_⟩
    · rw [if_neg hplace, if_neg (by omega)]
    · exact fun d hd => hdigits d (List.mem_of_mem_take hd)
    · exact fun d hd => hdigits d (List.mem_of_mem_drop hd)
    · rw [Ne, List.take_eq_nil_iff, not_or]
      exact ⟨by omega, digitsOf_ne_nil c⟩
    · rwa [List.head?_take, if_neg (by omega)]
    · rw [Ne, List.drop_eq_nil_iff]
      omega
    · rw [List.take_append_drop, ofDigits_digitsOf]
    · rw [List.length_drop]
      omega

theorem toLower_of_isDigit {d : Char} (h : d.isDigit = true) : d.toLower = d := by
  have hd := isDigit_iff.mp h
  refine dif_neg ?_
  rintro ⟨hle, _⟩
  have := UInt32.le_iff_toNat_le.mp hle
  exact absurd (Nat.le_trans this hd.2) (by decide)

/-- What begins with a digit is no word. -/
theorem readUnsigned?_of_isDigit {d : Char} (h : d.isDigit = true) (n : Bool) (cs : List Char) :
    readUnsigned? n (d :: cs) = readFinite? n (d :: cs) := by
  rw [readUnsigned?, List.map_cons, toLower_of_isDigit h]
  split
  all_goals first
    | rfl
    | next heq =>
        cases (List.cons.inj heq).1
        exact absurd h (by decide)

end Decimal

end Rowgate
