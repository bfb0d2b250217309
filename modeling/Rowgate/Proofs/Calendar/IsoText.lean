import Rowgate.Calendar.IsoReader
import Rowgate.Json.Writer
import Rowgate.Proofs.Encoding.Utf8
import Rowgate.Proofs.Number.Digits

/-!
# Dates and times that are read back

Dates and times of day are written with a fixed number of digits for each of their parts, so reading
one takes the digits of a part (`digits?_padded`), a mark, and then the rest. An offset comes last.
No character before it starts an offset (`takeWhile_clock`), and one of whole minutes is written as
universal time or by a sign and two parts (`Offset.WholeMinutes.offset_eq`). Readers of texts look at
octets and blanks first; the characters of the notation are neither blanks nor longer than one octet
(`Notes`).
-/

namespace Rowgate.Iso

/-! ## Digits -/

theorem ofDigitChars_padded (width n : Nat) :
    Nat.ofDigitChars 10 (padded width n) 0 = n % 10 ^ width := by
  induction width generalizing n with
  | zero => rw [Nat.pow_zero, Nat.mod_one]; rfl
  | succ width ih =>
      rw [padded, Nat.ofDigitChars_append, ih,
        Nat.ofDigitChars_cons_digitChar_of_lt_ten (Nat.mod_lt n (by decide)), Nat.pow_succ',
        Nat.mod_mul, Nat.add_comm]
      rfl

theorem isDigit_of_mem_padded {width n : Nat} {c : Char} (h : c ∈ padded width n) :
    c.isDigit = true := by
  induction width generalizing n with
  | zero => cases h
  | succ width ih =>
      rw [padded, List.mem_append, List.mem_singleton] at h
      rcases h with h | rfl
      · exact ih h
      · rw [Nat.isDigit_digitChar, decide_eq_true_eq]
        exact Nat.mod_lt n (by decide)

/-- The digits of a number that has no more of them are read as that number. -/
theorem digits?_padded {width n : Nat} (h : n < 10 ^ width) (rest : List Char) :
    digits? width (padded width n ++ rest) = some (n, rest) := by
  have hdigits : (padded width n).all Char.isDigit = true :=
    List.all_eq_true.mpr fun c hc => isDigit_of_mem_padded hc
  rw [digits?, List.take_left' (length_padded width n), List.drop_left' (length_padded width n),
    if_pos ⟨length_padded width n, hdigits⟩, ofDigitChars_padded, Nat.mod_eq_of_lt h]

theorem digits?_padded_self {width n : Nat} (h : n < 10 ^ width) :
    digits? width (padded width n) = some (n, []) := by
  have hread := digits?_padded h []
  rwa [List.append_nil] at hread

theorem cons_of_padded (width n : Nat) :
    ∃ c cs, padded (width + 1) n = c :: cs ∧ c.isDigit = true := by
  cases h : padded (width + 1) n with
  | nil =>
      have hlength := length_padded (width + 1) n
      rw [h] at hlength
      cases hlength
  | cons c cs => exact ⟨c, cs, rfl, isDigit_of_mem_padded (h ▸ List.mem_cons_self)⟩

theorem ne_of_isDigit {c d : Char} (hc : c.isDigit = true) (hd : d.isDigit = false) : c ≠ d := by
  rintro rfl
  rw [hc] at hd
  cases hd

/-! ## Dates -/

theorem daysInMonth_le (year month : Nat) : daysInMonth year month ≤ 31 := by
  rw [daysInMonth.eq_def]
  split
  case h_12 => split <;> decide
  all_goals decide

theorem date?_iso (d : Date) : date? 10 d.iso = some (d.year, d.month, d.day) := by
  obtain ⟨year, month, day, hyear, hmonth, hday⟩ := d
  have hy : year < 10 ^ 4 := Nat.lt_succ_of_le hyear.2
  have hm : month < 10 ^ 2 := Nat.lt_of_le_of_lt hmonth.2 (by decide)
  have hd : day < 10 ^ 2 := Nat.lt_of_le_of_lt (hday.2.trans (daysInMonth_le year month)) (by decide)
  obtain ⟨c, cs, hcons, hc⟩ := cons_of_padded 1 month
  rw [date?, Date.iso, digits?_padded hy]
  simp only [Option.bind_eq_bind, Option.bind_some, List.head?_cons, BEq.rfl, if_true,
    List.drop_succ_cons, List.drop_zero]
  split
  · next h =>
      rw [hcons] at h
      exact absurd (List.cons.inj h).1 (ne_of_isDigit hc (by decide))
  · rw [digits?_padded hm]
    simp only [Option.bind_some, List.head?_cons, BEq.rfl, if_true, List.drop_succ_cons,
      List.drop_zero, digits?_padded_self hd]

/-! ## Times of day -/

section Pairs

variable {colons? : Option Bool} {n count : Nat}

-- `rw [pairs?]` finds no equation to rewrite with, hence `delta` and `show`
theorem pairs?_last (hn : n < 10 ^ 2) : pairs? colons? count (padded 2 n) = some ([n], .ended) := by
  cases count with
  | zero | succ =>
      delta pairs?
      show (digits? 2 (padded 2 n)).bind _ = _
      rw [digits?_padded_self hn]
      rfl

theorem pairs?_colon (hcolons : colons? = none ∨ colons? = some true) (hn : n < 10 ^ 2)
    {rest : List Char} (hrest : rest ≠ []) :
    pairs? colons? (count + 1) (padded 2 n ++ ':' :: rest) =
      (pairs? (some true) count rest).map fun (ns, stop) => (n :: ns, stop) := by
  obtain ⟨c, cs, rfl⟩ := List.exists_cons_of_ne_nil hrest
  delta pairs?
  show (digits? 2 (padded 2 n ++ ':' :: c :: cs)).bind _ = _
  rw [digits?_padded hn]
  rcases hcolons with rfl | rfl <;> rfl

theorem pairs?_point (hn : n < 10 ^ 2) {rest : List Char} (hrest : rest ≠ []) :
    pairs? (some true) count (padded 2 n ++ '.' :: rest) = some ([n], .fraction rest) := by
  obtain ⟨c, cs, rfl⟩ := List.exists_cons_of_ne_nil hrest
  cases count with
  | zero | succ =>
      delta pairs?
      show (digits? 2 (padded 2 n ++ '.' :: c :: cs)).bind _ = _
      rw [digits?_padded hn]
      rfl

end Pairs

theorem padded_ne_nil (width n : Nat) : padded (width + 1) n ≠ [] := by
  obtain ⟨c, cs, h, -⟩ := cons_of_padded width n
  rw [h]
  exact List.cons_ne_nil c cs

theorem fraction?_padded {n : Nat} (hn : n < 10 ^ 6) : fraction? (padded 6 n) = some (n, []) := by
  rw [fraction?, length_padded]
  simp only [Nat.min_self, digits?_padded_self hn, Option.bind_eq_bind, Option.bind_some]
  rw [Nat.sub_self, Nat.pow_eq, Nat.pow_zero, Nat.mul_one]
  rfl

theorem clock?_iso (last : Bool) (c : Clock) :
    clock? last c.iso = some ⟨c.hour, c.minute, c.second, c.micros, last⟩ := by
  obtain ⟨hour, minute, second, micros, hh, hm, hs, hu⟩ := c
  have hh' : hour < 10 ^ 2 := Nat.lt_trans hh (by decide)
  have hm' : minute < 10 ^ 2 := Nat.lt_trans hm (by decide)
  have hs' : second < 10 ^ 2 := Nat.lt_trans hs (by decide)
  rw [clock?, Clock.iso]
  by_cases hzero : micros = 0
  · subst hzero
    rw [if_pos rfl, List.append_nil, pairs?_colon (Or.inl rfl) hh' (by simp),
      pairs?_colon (Or.inr rfl) hm' (padded_ne_nil 1 second), pairs?_last hs']
    rfl
  · rw [if_neg hzero, pairs?_colon (Or.inl rfl) hh' (by simp),
      pairs?_colon (Or.inr rfl) hm' (by simp), pairs?_point hs' (padded_ne_nil 5 micros)]
    simp only [Option.map_some, Option.bind_eq_bind, Option.bind_some, fraction?_padded hu]
    cases last <;> rfl

theorem clock?_minutes {hours minutes : Nat} (hh : hours < 10 ^ 2) (hm : minutes < 10 ^ 2) :
    clock? true (padded 2 hours ++ ':' :: padded 2 minutes) =
      some ⟨hours, minutes, 0, 0, true⟩ := by
  rw [clock?, pairs?_colon (Or.inl rfl) hh (padded_ne_nil 1 minutes), pairs?_last hm]
  rfl

/-! ## Offsets -/

theorem mem_clockIso {clock : Clock} {c : Char} (h : c ∈ clock.iso) :
    c.isDigit = true ∨ c = ':' ∨ c = '.' := by
  have hdigit : ∀ {width n : Nat}, c ∈ padded width n → c.isDigit = true ∨ c = ':' ∨ c = '.' :=
    fun hc => Or.inl (isDigit_of_mem_padded hc)
  rw [Clock.iso] at h
  simp only [List.mem_append, List.mem_cons] at h
  rcases h with h | rfl | h | rfl | h | h
  · exact hdigit h
  · exact Or.inr (Or.inl rfl)
  · exact hdigit h
  · exact Or.inr (Or.inl rfl)
  · exact hdigit h
  · split at h
    · cases h
    · rcases List.mem_cons.mp h with rfl | h
      · exact Or.inr (Or.inr rfl)
      · exact hdigit h

theorem not_startsOffset_of_mem {clock : Clock} {c : Char} (h : c ∈ clock.iso) :
    startsOffset c = false := by
  rcases mem_clockIso h with h | rfl | rfl
  · have hne : ∀ d : Char, d.isDigit = false → c ≠ d := fun d hd => ne_of_isDigit h hd
    rw [startsOffset, beq_false_of_ne (hne '+' (by decide)), beq_false_of_ne (hne '-' (by decide)),
      beq_false_of_ne (hne 'Z' (by decide))]
    rfl
  · decide
  · decide

theorem takeWhile_clock (clock : Clock) {rest : List Char}
    (h : rest = [] ∨ ∃ mark after, rest = mark :: after ∧ startsOffset mark = true) :
    (clock.iso ++ rest).takeWhile (!startsOffset ·) = clock.iso ∧
      (clock.iso ++ rest).dropWhile (!startsOffset ·) = rest := by
  have hclock : ∀ c ∈ clock.iso, (!startsOffset c) = true := fun c hc => by
    rw [not_startsOffset_of_mem hc]
    rfl
  rw [List.takeWhile_append_of_pos hclock, List.dropWhile_append_of_pos hclock]
  rcases h with rfl | ⟨mark, after, rfl, hmark⟩
  · exact ⟨List.append_nil _, rfl⟩
  · rw [List.takeWhile_cons_of_neg (by rw [hmark]; decide),
      List.dropWhile_cons_of_neg (by rw [hmark]; decide)]
    exact ⟨List.append_nil _, rfl⟩

/-- The numbers of a time of day, as they are read. -/
def readingOf (clock : Clock) (ended : Bool) : Reading :=
  ⟨clock.hour, clock.minute, clock.second, clock.micros, ended⟩

theorem time?_local (clock : Clock) : time? clock.iso = some (readingOf clock true, none) := by
  obtain ⟨htake, hdrop⟩ := takeWhile_clock clock (Or.inl rfl)
  rw [List.append_nil] at htake hdrop
  simp only [time?, htake, hdrop, clock?_iso]
  rfl

theorem time?_universal (clock : Clock) :
    time? (clock.iso ++ ['Z']) = some (readingOf clock false, some 0) := by
  obtain ⟨htake, hdrop⟩ := takeWhile_clock clock (Or.inr ⟨'Z', [], rfl, rfl⟩)
  simp only [time?, htake, hdrop, clock?_iso]
  rfl

/-- An offset of some minutes, the hours written apart. -/
def hoursMinutes (minutes : Nat) : List Char :=
  padded 2 (minutes / 60) ++ ':' :: padded 2 (minutes % 60)

/-- The microseconds of an offset with the numbers of a time of day; one of no whole seconds has none. -/
def Reading.offsetMicros (r : Reading) : Int :=
  let seconds : Int := r.hour * 3600 + r.minute * 60 + r.second
  if seconds = 0 then 0 else seconds * 1000000 + r.micros

theorem time?_signed (clock : Clock) (negative : Bool) {text : List Char} {r : Reading}
    (h : clock? true text = some r) (hr : r.ended = true) :
    time? (clock.iso ++ (if negative then '-' else '+') :: text) =
      some (readingOf clock false,
        some (if negative then -r.offsetMicros else r.offsetMicros)) := by
  have hstart : startsOffset (if negative then '-' else '+') = true := by cases negative <;> decide
  obtain ⟨htake, hdrop⟩ := takeWhile_clock clock (Or.inr ⟨_, text, rfl, hstart⟩)
  have hne : (if negative then '-' else '+') ≠ 'Z' := by cases negative <;> decide
  have hmark : ((if negative then '-' else '+') = '-') ↔ negative = true := by
    cases negative <;> decide
  simp only [time?, htake, hdrop, clock?_iso, h, hr, Option.bind_eq_bind, Option.bind_some,
    if_neg hne, if_true, hmark, readingOf]
  rfl

theorem time?_offset (clock : Clock) (negative : Bool) {minutes : Nat} (h : minutes < 1440) :
    time? (clock.iso ++ (if negative then '-' else '+') :: hoursMinutes minutes) =
      some (readingOf clock false,
        some ((if negative then -(minutes : Int) else minutes) * 60000000)) := by
  have hminutes : clock? true (hoursMinutes minutes) =
      some ⟨minutes / 60, minutes % 60, 0, 0, true⟩ := clock?_minutes (by omega) (by omega)
  have hmicros : Reading.offsetMicros ⟨minutes / 60, minutes % 60, 0, 0, true⟩ =
      (minutes : Int) * 60000000 := by
    simp only [Reading.offsetMicros]
    split <;> omega
  rw [time?_signed clock negative hminutes rfl, hmicros]
  cases negative
  · rfl
  · rw [if_pos rfl, if_pos rfl, Int.neg_mul]

end Rowgate.Iso

namespace Rowgate

/-- Whether an offset has no parts of a minute. -/
def Offset.WholeMinutes (o : Offset) : Prop := o.micros % 60000000 = 0

instance (o : Offset) : Decidable o.WholeMinutes := inferInstanceAs (Decidable (_ = _))

open Iso

/-- An offset of whole minutes is written as universal time or by its sign and its minutes. -/
theorem Offset.WholeMinutes.offset_eq {o : Offset} (h : o.WholeMinutes) :
    (o.micros = 0 ∧ Json.offset o = ['Z']) ∨
      ∃ (negative : Bool) (minutes : Nat), minutes < 1440 ∧
        o.micros = (if negative then -(minutes : Int) else minutes) * 60000000 ∧
        Json.offset o = (if negative then '-' else '+') :: hoursMinutes minutes := by
  obtain ⟨micros, hlow, hhigh⟩ := o
  rw [dayMicros] at hlow hhigh
  rw [WholeMinutes] at h
  dsimp only at h
  have hseconds : micros.fdiv 1000000 = micros / 60000000 * 60 := by
    rw [Int.fdiv_eq_ediv_of_nonneg _ (by decide)]
    omega
  rw [Json.offset]
  simp only [hseconds]
  by_cases hzero : micros = 0
  · subst hzero
    exact Or.inl ⟨rfl, rfl⟩
  · refine Or.inr ⟨decide (micros < 0), (micros / 60000000).natAbs, by omega, ?_, ?_⟩
    · simp only [decide_eq_true_eq]
      split <;> omega
    · rw [if_neg (by omega), hoursMinutes]
      have hsign : (micros / 60000000 * 60 < 0) ↔ micros < 0 := by omega
      have hhours : (micros / 60000000 * 60).natAbs / 3600 = (micros / 60000000).natAbs / 60 := by
        omega
      have hminutes : (micros / 60000000 * 60).natAbs / 60 % 60 =
          (micros / 60000000).natAbs % 60 := by omega
      simp only [hsign, hhours, hminutes, decide_eq_true_eq]

namespace Iso

theorem time?_sent (clock : Clock) {o : Option Offset} (h : ∀ x ∈ o, x.WholeMinutes) :
    time? (clock.iso ++ Json.offsetIfAny o) =
      some (readingOf clock o.isNone, o.map Offset.micros) := by
  cases o with
  | none =>
      rw [Json.offsetIfAny, Option.map_none, Option.getD_none, List.append_nil]
      exact time?_local clock
  | some x =>
      rw [Json.offsetIfAny, Option.map_some, Option.getD_some, Option.map_some]
      rcases (h x rfl).offset_eq with ⟨hmicros, hoffset⟩ | ⟨negative, minutes, hlt, hmicros, hoffset⟩
      · rw [hoffset, hmicros]
        exact time?_universal clock
      · rw [hoffset, hmicros]
        exact time?_offset clock negative hlt

theorem offsetOf_micros (o : Option Offset) : offsetOf (o.map Offset.micros) = .ok o := by
  cases o with
  | none => rfl
  | some x =>
      rw [Option.map_some, offsetOf, Offset.ofMicros, dif_pos x.valid]
      rfl

/-! ## The characters of the notation -/

/-- Whether a character stands in a moment, apart from the mark of universal time. -/
def NotesNumber (c : Char) : Prop := c.isDigit = true ∨ c ∈ ['-', ':', '.', '+', 'T']

/-- Whether a character stands in a moment. -/
def Notes (c : Char) : Prop := NotesNumber c ∨ c = 'Z'

theorem NotesNumber.notes {c : Char} (h : NotesNumber c) : Notes c := Or.inl h

theorem NotesNumber.ne {c : Char} (h : NotesNumber c) : c ≠ 'Z' := by
  rintro rfl
  rcases h with h | h
  · exact absurd h (by decide)
  · exact absurd h (by decide)

theorem Notes.ne_line {c : Char} (h : Notes c) : c ≠ '_' := by
  rintro rfl
  rcases h with (h | h) | h
  · exact absurd h (by decide)
  · exact absurd h (by decide)
  · exact absurd h (by decide)

theorem Notes.visible {c : Char} (h : Notes c) : Text.Visible c := by
  rcases h with (h | h) | rfl
  · have hc := isDigit_iff.mp h
    exact ⟨by omega, by omega⟩
  · simp only [List.mem_cons, List.not_mem_nil, or_false] at h
    rcases h with rfl | rfl | rfl | rfl | rfl <;> decide
  · decide

section Marks

variable {c : Char} {d : Date} {clock : Clock} {tail : List Char}

theorem mem_dateIso (h : c ∈ d.iso) : NotesNumber c := by
  rw [Date.iso] at h
  simp only [List.mem_append, List.mem_cons] at h
  rcases h with h | rfl | h | rfl | h
  · exact Or.inl (isDigit_of_mem_padded h)
  · exact Or.inr (by decide)
  · exact Or.inl (isDigit_of_mem_padded h)
  · exact Or.inr (by decide)
  · exact Or.inl (isDigit_of_mem_padded h)

theorem notesNumber_of_mem_clock (h : c ∈ clock.iso) : NotesNumber c := by
  rcases mem_clockIso h with h | rfl | rfl
  · exact Or.inl h
  · exact Or.inr (by decide)
  · exact Or.inr (by decide)

theorem mem_signed {negative : Bool} {minutes : Nat}
    (h : c ∈ (if negative then '-' else '+') :: hoursMinutes minutes) : NotesNumber c := by
  rw [hoursMinutes] at h
  simp only [List.mem_append, List.mem_cons] at h
  rcases h with rfl | h | rfl | h
  · cases negative <;> exact Or.inr (by decide)
  · exact Or.inl (isDigit_of_mem_padded h)
  · exact Or.inr (by decide)
  · exact Or.inl (isDigit_of_mem_padded h)

/-- A timestamp without the mark of universal time, if what follows its time of day has none. -/
theorem mem_dateTime (htail : ∀ c ∈ tail, NotesNumber c) :
    ∀ c ∈ d.iso ++ 'T' :: (clock.iso ++ tail), NotesNumber c := by
  refine List.forall_mem_append.mpr ⟨fun c hc => mem_dateIso hc, ?_⟩
  refine List.forall_mem_cons.mpr ⟨Or.inr (by decide), ?_⟩
  exact List.forall_mem_append.mpr ⟨fun c hc => notesNumber_of_mem_clock hc, htail⟩

theorem notes_offset (o : Option Offset) : ∀ c ∈ Json.offsetIfAny o, Notes c := by
  cases o with
  | none => exact List.forall_mem_nil _
  | some x =>
      rw [Json.offsetIfAny, Option.map_some, Option.getD_some, Json.offset]
      split
      · exact List.forall_mem_singleton.mpr (Or.inr rfl)
      · intro c hc
        simp only [List.mem_append, List.mem_cons] at hc
        refine NotesNumber.notes ?_
        rcases hc with rfl | hc | rfl | hc
        · split <;> exact Or.inr (by decide)
        · exact Or.inl (isDigit_of_mem_padded hc)
        · exact Or.inr (by decide)
        · exact Or.inl (isDigit_of_mem_padded hc)

theorem notes_time (clock : Clock) (o : Option Offset) :
    ∀ c ∈ clock.iso ++ Json.offsetIfAny o, Notes c :=
  List.forall_mem_append.mpr ⟨fun _ hc => (notesNumber_of_mem_clock hc).notes, notes_offset o⟩

theorem notes_dateTime (d : Date) (clock : Clock) (o : Option Offset) :
    ∀ c ∈ d.iso ++ 'T' :: (clock.iso ++ Json.offsetIfAny o), Notes c := by
  refine List.forall_mem_append.mpr ⟨fun c hc => (mem_dateIso hc).notes, ?_⟩
  exact List.forall_mem_cons.mpr ⟨Or.inl (Or.inr (by decide)), notes_time clock o⟩

end Marks

/-! ## Whole texts -/

variable {cs : List Char}

theorem trim_of_notes (h : ∀ c ∈ cs, Notes c) : Text.trim cs = cs :=
  Text.trim_of_visible fun c hc => (h c hc).visible

theorem whole?_of_visible (h : ∀ c ∈ cs, Text.Visible c) : whole? cs = some cs := by
  have hany : cs.any Text.isHalf = false := List.any_eq_false.mpr fun c hc => by
    rw [(h c hc).not_isHalf]
    exact Bool.false_ne_true
  rw [whole?, hany]
  rfl

theorem separated_of_visible (h : ∀ c ∈ cs, Text.Visible c) : separated cs = cs := by
  have hnone : (separatorPlaces.find? fun i => cs[i]?.any Text.isHalf) = none := by
    refine List.find?_eq_none.mpr fun i _ hi => ?_
    rw [Option.any_eq_true] at hi
    obtain ⟨c, hc, hhalf⟩ := hi
    rw [(h c (List.mem_of_getElem? hc)).not_isHalf] at hhalf
    cases hhalf
  rw [separated, hnone]

theorem octetCount_of_visible (h : ∀ c ∈ cs, Text.Visible c) : octetCount cs = cs.length := by
  have hfold : ∀ n, cs.foldl (fun n c => n + c.utf8Size) n = n + cs.length := by
    induction cs with
    | nil => exact fun n => rfl
    | cons c cs ih =>
        obtain ⟨hc, hcs⟩ := List.forall_mem_cons.mp h
        intro n
        rw [List.foldl_cons, ih hcs, hc.utf8Size, List.length_cons]
        omega
  rw [octetCount, hfold, Nat.zero_add]

theorem length_dateIso (d : Date) : d.iso.length = 10 := by
  simp only [Date.iso, List.length_append, List.length_cons, length_padded]

theorem readDate_iso (d : Date) : readDate (String.ofList d.iso) = .ok d := by
  have hvisible : ∀ c ∈ d.iso, Text.Visible c := fun c hc => (mem_dateIso hc).notes.visible
  rw [readDate]
  simp only [String.toList_ofList, octetCount_of_visible hvisible, length_dateIso,
    whole?_of_visible hvisible, Option.bind_some, date?_iso]
  exact d.ofParts_self

theorem readDateTime_iso (d : Date) {clock : Clock} {o : Option Offset} {tail : List Char}
    {ended : Bool} (hnotes : ∀ c ∈ d.iso ++ 'T' :: (clock.iso ++ tail), Notes c)
    (htime : time? (clock.iso ++ tail) = some (readingOf clock ended, o.map Offset.micros)) :
    readDateTime (String.ofList (d.iso ++ 'T' :: (clock.iso ++ tail))) = .ok ⟨d, clock, o⟩ := by
  -- how wide a date is shows in its fifth and sixth character: a dash, and no mark of a week
  have hwidth : dateWidth? (d.iso ++ 'T' :: (clock.iso ++ tail)) = some 10 := by
    obtain ⟨c, cs, hcons, hc⟩ := cons_of_padded 1 d.month
    have hlength : 7 < (d.iso ++ 'T' :: (clock.iso ++ tail)).length := by
      rw [List.length_append, length_dateIso]
      omega
    have hdash : (d.iso ++ 'T' :: (clock.iso ++ tail))[4]? = some '-' := by
      rw [Date.iso, List.append_assoc, List.getElem?_append_right (length_padded 4 d.year).le,
        length_padded]
      rfl
    have hdigit : (d.iso ++ 'T' :: (clock.iso ++ tail))[5]? = some c := by
      rw [Date.iso, List.append_assoc, List.getElem?_append_right
        ((length_padded 4 d.year).le.trans (Nat.le_succ 4)), length_padded, hcons]
      rfl
    have hne : ¬ some c = some 'W' := fun h => ne_of_isDigit hc (by decide) (Option.some.inj h)
    rw [dateWidth?, if_neg (by omega), if_neg (by omega), if_pos hdash, hdigit, if_neg hne]
  have hvisible := fun c hc => (hnotes c hc).visible
  rw [readDateTime, String.toList_ofList, separated_of_visible hvisible, whole?_of_visible hvisible,
    Option.bind_some, dateTime?, hwidth]
  simp only [Option.bind_eq_bind, Option.bind_some, List.take_left' (length_dateIso d),
    List.drop_left' (length_dateIso d), date?_iso, htime]
  rw [offsetOf_micros]
  show (Date.ofParts d.year d.month d.day).bind _ = _
  rw [d.ofParts_self]
  show (Clock.ofParts clock.hour clock.minute clock.second clock.micros).bind _ = _
  rw [clock.ofParts_self]
  rfl

/-- A time of day is read if it does not begin as times with a leading mark do. -/
theorem readTime_iso {cs : List Char} {clock : Clock} {o : Option Offset} {ended : Bool}
    (hstart : ∀ rest, cs ≠ 'T' :: rest) (hnotes : ∀ c ∈ cs, Notes c)
    (htime : time? cs = some (readingOf clock ended, o.map Offset.micros)) :
    readTime (String.ofList cs) = .ok ⟨clock, o⟩ := by
  rw [readTime, String.toList_ofList]
  simp only [whole?_of_visible fun c hc => (hnotes c hc).visible, Option.bind_some, htime]
  rw [offsetOf_micros]
  show (Clock.ofParts clock.hour clock.minute clock.second clock.micros).bind _ = _
  rw [clock.ofParts_self]
  rfl

end Iso

end Rowgate
