import Rowgate.Proofs.Calendar.IsoText

/-!
# Offsets that are read back

An offset is written by its hours and minutes if there is no more to it, else as a time of day would be
(`Offset.iso_eq`). Either way the reader gets its sign and its numbers, and it makes of them the offset
that was written, unless that has no whole seconds: of such an offset only universal time is left
(`Offset.asRead`).
-/

namespace Rowgate

/-- What is read where an offset was written. -/
def Offset.asRead (o : Offset) : Offset :=
  if o.micros.natAbs < 1000000 then ⟨0, by decide⟩ else o

theorem Offset.asRead_eq_self_iff {o : Offset} :
    o.asRead = o ↔ o.micros = 0 ∨ 1000000 ≤ o.micros.natAbs := by
  obtain ⟨micros, hvalid⟩ := o
  rw [asRead]
  split
  · next h =>
      rw [Offset.mk.injEq]
      dsimp only at h ⊢
      omega
  · next h => exact iff_of_true rfl (Or.inr (Nat.not_lt.mp h))

/-- A timestamp with its offset as it is read. -/
def DateTime.asRead (t : DateTime) : DateTime := { t with offset := t.offset.map Offset.asRead }

namespace Iso

/-- The numbers of an offset are those of a time of day. -/
theorem size_valid (o : Offset) :
    o.micros.natAbs / 1000000 / 3600 < 24 ∧ o.micros.natAbs / 1000000 / 60 % 60 < 60 ∧
      o.micros.natAbs / 1000000 % 60 < 60 ∧ o.micros.natAbs % 1000000 < 1000000 := by
  have h := o.valid
  rw [dayMicros] at h
  exact ⟨by omega, by omega, by omega, by omega⟩

/-- The size of an offset as a time of day. -/
def sizeOf (o : Offset) : Clock where
  hour := o.micros.natAbs / 1000000 / 3600
  minute := o.micros.natAbs / 1000000 / 60 % 60
  second := o.micros.natAbs / 1000000 % 60
  micros := o.micros.natAbs % 1000000
  valid := size_valid o

theorem iso_eq (o : Offset) :
    o.iso = (if o.micros < 0 then '-' else '+') ::
      (if (sizeOf o).second = 0 ∧ (sizeOf o).micros = 0 then
        padded 2 (sizeOf o).hour ++ ':' :: padded 2 (sizeOf o).minute
      else (sizeOf o).iso) := by
  by_cases h : (sizeOf o).second = 0 ∧ (sizeOf o).micros = 0
  · have hsize : o.micros.natAbs / 1000000 % 60 = 0 ∧ o.micros.natAbs % 1000000 = 0 := h
    rw [if_pos h, Offset.iso]
    simp [sizeOf, hsize.1, hsize.2]
  · have hsize : ¬ (o.micros.natAbs / 1000000 % 60 = 0 ∧ o.micros.natAbs % 1000000 = 0) := h
    rw [if_neg h, Offset.iso, Clock.iso]
    simp only [sizeOf, if_neg hsize, List.append_assoc, List.cons_append]
    rfl

theorem offsetMicros_sizeOf (o : Offset) (ended : Bool) :
    (readingOf (sizeOf o) ended).offsetMicros =
      if o.micros.natAbs < 1000000 then 0 else (o.micros.natAbs : Int) := by
  unfold Reading.offsetMicros readingOf sizeOf
  dsimp only
  split <;> split <;> omega

theorem signed_offsetMicros (o : Offset) (ended : Bool) :
    (if o.micros < 0 then -(readingOf (sizeOf o) ended).offsetMicros
      else (readingOf (sizeOf o) ended).offsetMicros) = o.asRead.micros := by
  rw [offsetMicros_sizeOf, Offset.asRead]
  by_cases h : o.micros.natAbs < 1000000
  · simp [h]
  · rw [if_neg h, if_neg h]
    split <;> omega

theorem time?_iso (clock : Clock) (o : Option Offset) :
    time? (clock.iso ++ Offset.isoIfAny o) =
      some (readingOf clock o.isNone, (o.map Offset.asRead).map Offset.micros) := by
  cases o with
  | none =>
      rw [Offset.isoIfAny, Option.map_none, Option.getD_none, List.append_nil]
      exact time?_local clock
  | some x =>
      have hsign : (if x.micros < 0 then '-' else '+') =
          if decide (x.micros < 0) then '-' else '+' := by simp
      have hread : ∃ text, x.iso = (if decide (x.micros < 0) then '-' else '+') :: text ∧
          clock? true text = some (readingOf (sizeOf x) true) := by
        obtain ⟨hhour, hminute, -⟩ := (sizeOf x).valid
        rw [iso_eq, hsign]
        by_cases h : (sizeOf x).second = 0 ∧ (sizeOf x).micros = 0
        · refine ⟨_, rfl, ?_⟩
          rw [if_pos h, clock?_minutes (by omega) (by omega), readingOf, h.1, h.2]
        · refine ⟨_, rfl, ?_⟩
          rw [if_neg h]
          exact clock?_iso true _
      obtain ⟨text, htext, hclock⟩ := hread
      rw [Offset.isoIfAny, Option.map_some, Option.getD_some, htext,
        time?_signed clock _ hclock rfl]
      simp only [decide_eq_true_eq, signed_offsetMicros]
      rfl

/-! ## The characters of a timestamp -/

theorem notesNumber_isoIfAny (o : Option Offset) : ∀ c ∈ Offset.isoIfAny o, NotesNumber c := by
  intro c hc
  cases o with
  | none => cases hc
  | some x =>
      rw [Offset.isoIfAny, Option.map_some, Option.getD_some, iso_eq] at hc
      rcases List.mem_cons.mp hc with rfl | hc
      · split <;> exact Or.inr (by decide)
      · split at hc
        · rcases List.mem_append.mp hc with hc | hc
          · exact Or.inl (isDigit_of_mem_padded hc)
          · rcases List.mem_cons.mp hc with rfl | hc
            · exact Or.inr (by decide)
            · exact Or.inl (isDigit_of_mem_padded hc)
        · exact notesNumber_of_mem_clock hc

theorem notesNumber_dateTime (t : DateTime) : ∀ c ∈ t.iso 'T', NotesNumber c :=
  mem_dateTime (notesNumber_isoIfAny t.offset)

/-- A timestamp that was written is read, apart from an offset of no whole seconds. -/
theorem readDateTime_written (t : DateTime) :
    readDateTime (String.ofList (t.iso 'T')) = .ok t.asRead :=
  readDateTime_iso t.date (fun c hc => (notesNumber_dateTime t c hc).notes)
    (time?_iso t.clock t.offset)

end Iso

end Rowgate
