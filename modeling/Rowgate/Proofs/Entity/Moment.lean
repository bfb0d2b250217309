import Rowgate.Entity.Coerce
import Rowgate.Proofs.Calendar.IsoText

/-!
# Moments that a field reads

A field of dates, of times or of timestamps takes the text that its value is written as in JSON for
that value. Texts lose their blanks first, which the notation has none of, and the mark of universal
time is brought to an offset.
-/

namespace Rowgate

open Iso

/-- A timestamp that marks no universal time is read as it stands. -/
theorem readTimestamp_of_numbers {cs : List Char} (h : ∀ c ∈ cs, NotesNumber c) :
    readTimestamp (String.ofList cs) = liftCalendar (readDateTime (String.ofList cs)) := by
  rw [readTimestamp, String.toList_ofList, trim_of_notes fun c hc => (h c hc).notes]
  split
  · next rest hrest =>
      have hmem : 'Z' ∈ cs := List.mem_reverse.mp (hrest ▸ List.mem_cons_self)
      exact absurd rfl (h 'Z' hmem).ne
  · rfl

theorem readTimestamp_universal {cs : List Char} (h : ∀ c ∈ cs, NotesNumber c) :
    readTimestamp (String.ofList (cs ++ ['Z'])) =
      liftCalendar (readDateTime (String.ofList (cs ++ "+00:00".toList))) := by
  have hnotes : ∀ c ∈ cs ++ ['Z'], Notes c := fun c hc => by
    rcases List.mem_append.mp hc with hc | hc
    · exact (h c hc).notes
    · rw [List.mem_singleton.mp hc]
      exact Or.inr (by decide)
  rw [readTimestamp, String.toList_ofList, trim_of_notes hnotes, List.reverse_append]
  show liftCalendar (readDateTime (String.ofList (cs.reverse.reverse ++ "+00:00".toList))) = _
  rw [List.reverse_reverse]

section Sent

variable {date : Date} {clock : Clock} {offset : Option Offset} {tail : List Char} {ended : Bool}

theorem readDateTime_numbers (htail : ∀ c ∈ tail, NotesNumber c)
    (htime : time? (clock.iso ++ tail) = some (readingOf clock ended, offset.map Offset.micros)) :
    liftCalendar (readDateTime (String.ofList (date.iso ++ 'T' :: (clock.iso ++ tail)))) =
      .ok ⟨date, clock, offset⟩ := by
  rw [readDateTime_iso date (fun c hc => (mem_dateTime htail c hc).notes) htime]
  rfl

/-- The mark of universal time is read as the offset that is zero. -/
theorem readTimestamp_zero {o : Offset} (hzero : o.micros = 0) :
    readTimestamp (String.ofList (date.iso ++ 'T' :: clock.iso ++ ['Z'])) =
      .ok ⟨date, clock, some o⟩ := by
  have hmoment : ∀ c ∈ date.iso ++ 'T' :: clock.iso, NotesNumber c := by
    have h : ∀ c ∈ date.iso ++ 'T' :: (clock.iso ++ []), NotesNumber c :=
      mem_dateTime (List.forall_mem_nil NotesNumber)
    rwa [List.append_nil] at h
  have hspelled : date.iso ++ 'T' :: clock.iso ++ "+00:00".toList =
      date.iso ++ 'T' :: (clock.iso ++ '+' :: hoursMinutes 0) := by
    rw [List.append_assoc, List.cons_append]
    rfl
  have hzone : ∀ c ∈ '+' :: hoursMinutes 0, NotesNumber c := fun c hc => @mem_signed c false 0 hc
  have hread : time? (clock.iso ++ '+' :: hoursMinutes 0) =
      some (readingOf clock false, (some o).map Offset.micros) := by
    rw [Option.map_some, hzero]
    exact time?_offset clock false (by decide)
  rw [readTimestamp_universal hmoment, hspelled, readDateTime_numbers hzone hread]

end Sent

/-- A timestamp with an offset of whole minutes or none is read back. -/
theorem readTimestamp_sent (t : DateTime) (h : ∀ o ∈ t.offset, o.WholeMinutes) :
    readTimestamp
        (String.ofList (t.date.iso ++ 'T' :: (t.clock.iso ++ Json.offsetIfAny t.offset))) =
      .ok t := by
  obtain ⟨date, clock, offset⟩ := t
  dsimp only at h ⊢
  have htime := time?_sent clock h
  cases offset with
  | none =>
      have hnone : ∀ c ∈ Json.offsetIfAny none, NotesNumber c := List.forall_mem_nil _
      rw [readTimestamp_of_numbers (mem_dateTime hnone), readDateTime_numbers hnone htime]
  | some o =>
      have hsome : Json.offsetIfAny (some o) = Json.offset o := rfl
      rw [hsome] at htime ⊢
      rcases (h o rfl).offset_eq with ⟨hzero, hoffset⟩ | ⟨negative, minutes, -, -, hoffset⟩
      · have htext : date.iso ++ 'T' :: (clock.iso ++ Json.offset o) =
            date.iso ++ 'T' :: clock.iso ++ ['Z'] := by
          rw [hoffset, List.append_assoc, List.cons_append]
        rw [htext, readTimestamp_zero hzero]
      · have hsigned : ∀ c ∈ Json.offset o, NotesNumber c := by
          rw [hoffset]
          exact fun c hc => mem_signed hc
        rw [readTimestamp_of_numbers (mem_dateTime hsigned), readDateTime_numbers hsigned htime]

/-- A time of day with an offset of whole minutes or none is read back. -/
theorem toTime_sent (t : Time) (h : ∀ o ∈ t.offset, o.WholeMinutes) :
    toTime (.str (String.ofList (t.clock.iso ++ Json.offsetIfAny t.offset))) = .ok t := by
  obtain ⟨clock, offset⟩ := t
  dsimp only at h ⊢
  have hnotes := notes_time clock offset
  have hstart : ∀ rest, clock.iso ++ Json.offsetIfAny offset ≠ 'T' :: rest := by
    obtain ⟨c, cs, hcons, hc⟩ := cons_of_padded 1 clock.hour
    intro rest heq
    rw [Clock.iso, hcons] at heq
    exact ne_of_isDigit hc (by decide) (List.cons.inj heq).1
  rw [toTime, Text.strip, String.toList_ofList, trim_of_notes hnotes,
    readTime_iso hstart hnotes (time?_sent clock h)]
  rfl

theorem toDate_sent (d : Date) : toDate (.str (String.ofList d.iso)) = .ok d := by
  have hstrip : Text.strip (String.ofList d.iso) = String.ofList d.iso := by
    rw [Text.strip, String.toList_ofList, trim_of_notes fun c hc => (mem_dateIso hc).notes]
  rw [toDate, hstrip, readDate_iso]

end Rowgate
