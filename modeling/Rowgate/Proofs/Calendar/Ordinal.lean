import Rowgate.Calendar.Date

/-!
# Different dates have different numbers

The number of a day counts the years, the months and the days before it. Each of the three counts
is too small to make up for a difference in the one before: the days of a month end where the next
month begins, and the months of a year end where the next year begins. So the number tells year,
month and day apart.
-/

namespace Rowgate

/-- The days of a year. -/
def daysInYear (year : Nat) : Nat := if isLeap year then 366 else 365

theorem isLeap_iff (year : Nat) : isLeap year = true ↔ 4 ∣ year ∧ (100 ∣ year → 400 ∣ year) := by
  simp only [isLeap, Bool.and_eq_true, Bool.or_eq_true, beq_iff_eq, bne_iff_ne, ne_eq,
    ← Nat.dvd_iff_mod_eq_zero]
  exact and_congr_right fun _ => Decidable.imp_iff_not_or.symm

theorem daysBeforeYear_succ {year : Nat} (h : 1 ≤ year) :
    daysBeforeYear (year + 1) = daysBeforeYear year + daysInYear year := by
  obtain ⟨past, rfl⟩ : ∃ past, year = past + 1 := ⟨year - 1, by omega⟩
  have hle : past / 100 ≤ past / 4 := Nat.div_le_div_left (by decide) (by decide)
  have h₁ : 100 ∣ past + 1 → 4 ∣ past + 1 := Nat.dvd_trans (by decide)
  have h₂ : 400 ∣ past + 1 → 100 ∣ past + 1 := Nat.dvd_trans (by decide)
  simp only [daysBeforeYear, daysInYear, isLeap_iff, Nat.add_sub_cancel, Nat.succ_div]
  generalize past / 4 = fours at hle ⊢
  generalize past / 100 = centuries at hle ⊢
  generalize past / 400 = cycles
  by_cases h4 : 4 ∣ past + 1 <;> by_cases h100 : 100 ∣ past + 1 <;>
    by_cases h400 : 400 ∣ past + 1 <;> simp only [h4, h100, h400, true_and, false_and, if_true,
      if_false, forall_const, imp_self, false_implies] at h₁ h₂ ⊢ <;> omega

theorem daysBeforeYear_mono {a b : Nat} (ha : 1 ≤ a) (h : a ≤ b) :
    daysBeforeYear a ≤ daysBeforeYear b := by
  induction h with
  | refl => exact Nat.le_refl _
  | step hab ih =>
      rw [daysBeforeYear_succ (Nat.le_trans ha hab)]
      omega

theorem daysBeforeMonth_succ (year : Nat) {month : Nat} (h : 1 ≤ month) :
    daysBeforeMonth year (month + 1) = daysBeforeMonth year month + daysInMonth year month := by
  obtain ⟨past, rfl⟩ : ∃ past, month = past + 1 := ⟨month - 1, by omega⟩
  rw [daysBeforeMonth, daysBeforeMonth, Nat.add_sub_cancel, Nat.add_sub_cancel, List.range_succ,
    List.foldl_append]
  rfl

theorem daysBeforeMonth_mono (year : Nat) {a b : Nat} (ha : 1 ≤ a) (h : a ≤ b) :
    daysBeforeMonth year a ≤ daysBeforeMonth year b := by
  induction h with
  | refl => exact Nat.le_refl _
  | step hab ih =>
      rw [daysBeforeMonth_succ year (Nat.le_trans ha hab)]
      omega

theorem daysBeforeMonth_year (year : Nat) : daysBeforeMonth year 13 = daysInYear year := by
  simp only [daysBeforeMonth, daysInYear, List.range, List.range.loop, List.foldl, daysInMonth]
  split <;> rfl

namespace Date

/-- The number of the day in its year. -/
def yearDay (d : Date) : Nat := daysBeforeMonth d.year d.month + d.day

theorem ordinal_eq (d : Date) : d.ordinal = daysBeforeYear d.year + d.yearDay := by
  rw [ordinal, yearDay, Nat.add_assoc]

theorem yearDay_le (d : Date) : d.yearDay ≤ daysInYear d.year := by
  obtain ⟨_, ⟨hm, hm'⟩, _, hd⟩ := d.valid
  rw [yearDay, ← daysBeforeMonth_year]
  have hnext := daysBeforeMonth_succ d.year hm
  have hlast := daysBeforeMonth_mono d.year (a := d.month + 1) (b := 13) (by omega) (by omega)
  omega

theorem yearDay_pos (d : Date) : 1 ≤ d.yearDay := by
  obtain ⟨_, _, hd, _⟩ := d.valid
  rw [yearDay]
  omega

theorem ordinal_lt_of_year_lt {a b : Date} (h : a.year < b.year) : a.ordinal < b.ordinal := by
  obtain ⟨⟨hy, _⟩, _⟩ := a.valid
  have hle := a.yearDay_le
  have hpos := b.yearDay_pos
  have hmono := daysBeforeYear_mono (a := a.year + 1) (b := b.year) (by omega) h
  rw [daysBeforeYear_succ hy] at hmono
  rw [ordinal_eq, ordinal_eq]
  omega

theorem yearDay_lt_of_month_lt {a b : Date} (hy : a.year = b.year) (h : a.month < b.month) :
    a.yearDay < b.yearDay := by
  obtain ⟨_, ⟨hm, _⟩, _, hd⟩ := a.valid
  obtain ⟨_, _, hb, _⟩ := b.valid
  have hnext := daysBeforeMonth_succ a.year hm
  have hmono := daysBeforeMonth_mono a.year (a := a.month + 1) (b := b.month) (by omega) h
  rw [yearDay, yearDay, ← hy]
  omega

/-- The number of a day tells the date. -/
theorem ordinal_injective {a b : Date} (h : a.ordinal = b.ordinal) : a = b := by
  have hy : a.year = b.year := by
    rcases Nat.lt_trichotomy a.year b.year with hlt | heq | hgt
    · exact absurd h (Nat.ne_of_lt (ordinal_lt_of_year_lt hlt))
    · exact heq
    · exact absurd h.symm (Nat.ne_of_lt (ordinal_lt_of_year_lt hgt))
  have hday : a.yearDay = b.yearDay := by
    rw [ordinal_eq, ordinal_eq, hy] at h
    omega
  have hm : a.month = b.month := by
    rcases Nat.lt_trichotomy a.month b.month with hlt | heq | hgt
    · exact absurd hday (Nat.ne_of_lt (yearDay_lt_of_month_lt hy hlt))
    · exact heq
    · exact absurd hday.symm (Nat.ne_of_lt (yearDay_lt_of_month_lt hy.symm hgt))
  have hd : a.day = b.day := by
    rw [yearDay, yearDay, hy, hm] at hday
    omega
  cases a
  cases b
  cases hy
  cases hm
  cases hd
  rfl

end Date

end Rowgate
