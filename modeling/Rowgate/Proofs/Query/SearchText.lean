import Rowgate.Proofs.Calendar.OffsetText
import Rowgate.Proofs.Calendar.Pattern
import Rowgate.Proofs.Number.DecimalText
import Rowgate.Query.Search

/-!
# What a search makes of a written value

Several readers compete for the text of a search: one for numbers, two for the international notation,
and one for each pattern of dates. A decimal and a moment, as they are written, each go to their own.
Digits with a sign and a point are kept from the readers of dates; a decimal with an exponent is not,
but it has a mark among its first two characters, where a date has digits, and at most one point, where
a pattern has two marks (`moment?_numeral`). A moment has a hyphen behind its first digit, so it is not
taken for digits (`moment?_iso`). None of them has a blank in it, so two of them with a hyphen between
blanks are taken apart where they were put together (`splitOn_written`).
-/

namespace Rowgate

/-! ## Taking apart -/

namespace Text

variable {s : Char} {sep cs rest : List Char}

theorem dropStart?_append (sep rest : List Char) : dropStart? sep (sep ++ rest) = some rest := by
  induction sep with
  | nil => rfl
  | cons c sep ih => rw [List.cons_append, dropStart?, if_pos rfl, ih]

theorem splitOnce?_append (h : s ∉ cs) :
    splitOnce? (s :: sep) (cs ++ (s :: sep ++ rest)) = some (cs, rest) := by
  induction cs with
  | nil =>
      have hdrop := dropStart?_append (s :: sep) rest
      rw [List.nil_append]
      rw [List.cons_append] at hdrop ⊢
      rw [splitOnce?, hdrop]
  | cons c cs ih =>
      obtain ⟨hc, hcs⟩ := not_or.mp (List.mem_cons.not.mp h)
      rw [List.cons_append, splitOnce?, dropStart?, if_neg hc, ih hcs]
      rfl

theorem splitOnce?_of_not_mem (h : s ∉ cs) : splitOnce? (s :: sep) cs = none := by
  induction cs with
  | nil => rfl
  | cons c cs ih =>
      obtain ⟨hc, hcs⟩ := not_or.mp (List.mem_cons.not.mp h)
      rw [splitOnce?, dropStart?, if_neg hc, ih hcs]
      rfl

theorem splitOn_of_not_mem (h : s ∉ cs) : splitOn (s :: sep) cs = [cs] := by
  rw [splitOn.eq_def]
  split
  · rfl
  · next heq =>
      rw [splitOnce?_of_not_mem h] at heq
      cases heq

theorem splitOn_append (h : s ∉ cs) :
    splitOn (s :: sep) (cs ++ (s :: sep ++ rest)) = cs :: splitOn (s :: sep) rest := by
  rw [splitOn.eq_def]
  split
  · next heq =>
      rw [splitOnce?_append h] at heq
      cases heq
  · next heq =>
      rw [splitOnce?_append h] at heq
      cases heq
      rw [dif_neg (List.cons_ne_nil s sep)]

theorem Visible.ne_blank {c : Char} (h : Visible c) : c ≠ ' ' := by
  rintro rfl
  exact absurd h (by decide)

end Text

/-! ## Texts that are no dates -/

namespace Iso

variable {cs : List Char}

theorem digits?_take {n : Nat} (h : digits? n cs = none) (width : Nat) :
    digits? n (cs.take width) = none := by
  rw [digits?, ite_eq_right_iff] at h ⊢
  rintro ⟨hlength, hdigits⟩
  have htake : (cs.take width).take n = cs.take n := by
    rw [List.length_take, List.length_take] at hlength
    rw [List.take_take, Nat.min_eq_left (by omega)]
  rw [htake] at hlength hdigits
  cases h ⟨hlength, hdigits⟩

theorem date?_eq_none (h : digits? 4 cs = none) (width : Nat) : date? width cs = none := by
  rw [date?, h]
  rfl

/-- A text that does not begin with a year is no date. -/
theorem readDate_eq_error (h : digits? 4 cs = none) :
    readDate (String.ofList cs) = .error (.unreadable (String.ofList cs)) := by
  have hdate : (whole? cs).bind (date? (octetCount cs)) = none := by
    rw [whole?]
    split
    · rfl
    · exact date?_eq_none h _
  rw [readDate, String.toList_ofList]
  simp only [hdate, ite_self]

theorem readDateTime_eq_error (hcs : ∀ c ∈ cs, Text.Visible c) (h : digits? 4 cs = none) :
    readDateTime (String.ofList cs) = .error (.unreadable (String.ofList cs)) := by
  have hdateTime : dateTime? cs = none := by
    rw [dateTime?]
    cases dateWidth? cs with
    | none => rfl
    | some width =>
        rw [Option.bind_eq_bind, Option.bind_some, date?_eq_none (digits?_take h width)]
        rfl
  rw [readDateTime, String.toList_ofList, separated_of_visible hcs, whole?_of_visible hcs,
    Option.bind_some, hdateTime]

end Iso

namespace Search

open Json Decimal

theorem spellOffset_of_not_mem {cs : List Char} (h : 'Z' ∉ cs) : spellOffset cs = cs := by
  rw [spellOffset]
  split
  · next rest heq =>
      refine absurd (List.mem_reverse.mp ?_) h
      rw [heq]
      exact List.mem_cons_self
  · rfl

/-! ## Decimals -/

section Decimals

variable {m : Numeral}

theorem isSign_of_isDigit {c : Char} (h : c.isDigit = true) : (c == '+' || c == '-') = false := by
  rw [beq_false_of_ne (Iso.ne_of_isDigit h (by decide)),
    beq_false_of_ne (Iso.ne_of_isDigit h (by decide))]
  rfl

theorem dropWhile_sign (m : Numeral) :
    (m.text.dropWhile fun c => c == '+' || c == '-') = m.unsigned := by
  have hunsigned : (m.unsigned.dropWhile fun c => c == '+' || c == '-') = m.unsigned := by
    obtain ⟨d, ds, hwhole⟩ := List.exists_cons_of_ne_nil m.whole_ne_nil
    have hd := m.areWhole d (by rw [hwhole]; exact List.mem_cons_self)
    rw [Numeral.unsigned, hwhole, List.cons_append,
      List.dropWhile_cons_of_neg (by rw [isSign_of_isDigit hd]; decide)]
  rw [Numeral.text]
  cases m.negative with
  | true => exact hunsigned
  | false => exact hunsigned

theorem dropFirstPoint_pointed {whole fraction : List Char} (h : ∀ d ∈ whole, d.isDigit = true) :
    dropFirstPoint (whole ++ Numeral.pointed fraction) = whole ++ fraction := by
  have hne : ∀ d ∈ whole, (d != '.') = true := fun d hd =>
    bne_iff_ne.mpr (Iso.ne_of_isDigit (h d hd) (by decide))
  rw [dropFirstPoint, List.takeWhile_append_of_pos hne, List.dropWhile_append_of_pos hne]
  cases fraction with
  | nil => simp [Numeral.pointed]
  | cons d ds => simp [Numeral.pointed]

/-- A number without an exponent is written with digits, signs and a point. -/
theorem isNumeric_numeral (h : m.power = none) : isNumeric m.text = true := by
  have hpower : m.powerText = [] := by
    rw [Numeral.powerText, h]
    rfl
  have hdigits : ∀ d ∈ m.whole ++ m.fraction, Text.isDigitLike d = true := fun d hd => by
    rw [Text.isDigitLike, isDecimal_of_isDigit, Bool.true_or]
    exact (List.mem_append.mp hd).elim (m.areWhole d) (m.areFraction d)
  have hne : (m.whole ++ m.fraction).isEmpty = false := by
    rw [List.isEmpty_eq_false_iff]
    exact fun heq => m.whole_ne_nil (List.append_eq_nil_iff.mp heq).1
  rw [isNumeric, dropWhile_sign, Numeral.unsigned, hpower, List.append_nil,
    dropFirstPoint_pointed m.areWhole]
  simp only [hne, List.all_eq_true.mpr hdigits]
  rfl

/-- A decimal with an exponent has its sign, its point or the mark of its exponent among its first two
characters. -/
theorem digits?_numeral {p : Power} (hwhole : m.whole.length = 1) (h : m.power = some p) :
    Iso.digits? 4 m.text = none := by
  have hpair : ∀ (c d : Char) (cs : List Char), c.isDigit = false ∨ d.isDigit = false →
      Iso.digits? 4 (c :: d :: cs) = none := by
    intro c d cs hcd
    rw [Iso.digits?, ite_eq_right_iff]
    rintro ⟨-, hdigits⟩
    simp only [List.take_succ_cons, List.all_cons, Bool.and_eq_true] at hdigits
    rcases hcd with hc | hd
    · rw [hc] at hdigits
      cases hdigits.1
    · rw [hd] at hdigits
      cases hdigits.2.1
  obtain ⟨d, hd⟩ := List.length_eq_one_iff.mp hwhole
  rw [Numeral.text, Numeral.unsigned, hd, Numeral.powerText, h]
  cases m.negative with
  | true => exact hpair '-' d _ (Or.inl (by decide))
  | false =>
      cases m.fraction with
      | nil =>
          refine hpair d p.mark _ (Or.inr ?_)
          rcases p.isMark with hmark | hmark <;> rw [hmark] <;> decide
      | cons f fs => exact hpair d '.' _ (Or.inr (by decide))

theorem count_point_text (m : Numeral) : m.text.count '.' < 2 := by
  have hdigits : ∀ ds : List Char, (∀ d ∈ ds, d.isDigit = true) → ds.count '.' = 0 :=
    fun ds hds => List.count_eq_zero_of_not_mem fun hmem => absurd (hds '.' hmem) (by decide)
  have hsign : (Decimal.sign m.negative).count '.' = 0 := by cases m.negative <;> rfl
  have hpointed : (Numeral.pointed m.fraction).count '.' ≤ 1 := by
    have hfraction := hdigits m.fraction m.areFraction
    cases hf : m.fraction with
    | nil => exact Nat.zero_le 1
    | cons d ds =>
        rw [hf] at hfraction
        rw [Numeral.pointed, List.count_cons, hfraction]
        exact Nat.le_refl 1
  have hpower : m.powerText.count '.' = 0 := by
    rw [Numeral.powerText]
    cases m.power with
    | none => rfl
    | some p =>
        refine List.count_eq_zero_of_not_mem fun hmem => ?_
        rw [Option.map_some, Option.getD_some, Power.text, List.mem_cons, List.mem_append] at hmem
        rcases hmem with hmem | hmem | hmem
        · rcases p.isMark with hmark | hmark <;> rw [hmark] at hmem <;> cases hmem
        · rcases p.isSign with hsign | hsign | hsign <;> rw [hsign] at hmem <;> simp at hmem
        · exact absurd (p.areDigits '.' hmem) (by decide)
  rw [Numeral.text, Numeral.unsigned, List.count_append, List.count_append, List.count_append,
    hsign, hdigits m.whole m.areWhole, hpower]
  omega

/-- The text of a decimal is no moment. -/
theorem moment?_numeral (h : LaidOut m) : moment? m.text = none := by
  have hnotes : ∀ c ∈ m.text, Notes c := fun _ => notes_of_mem_text
  have hvisible : ∀ c ∈ m.text, Text.Visible c := fun c hc => (hnotes c hc).visible.1
  have hne : ∀ d, (d.isDigit = false ∧ d ∉ ['-', '+', '.', 'e', 'E']) → d ∉ m.text :=
    fun d hd hmem => (hnotes d hmem).elim (fun h => by rw [h] at hd; cases hd.1) hd.2
  rw [moment?, Text.trim_of_visible hvisible]
  cases hp : m.power with
  | none =>
      simp only [isNumeric_numeral hp, Bool.or_true, if_true]
  | some p =>
      have hwhole := h.resolve_left (by rw [hp]; exact Option.some_ne_none p)
      have hyear := digits?_numeral hwhole hp
      have hslash := List.count_eq_zero_of_not_mem (hne '/' (by decide))
      simp only [Iso.readDate_eq_error hyear, spellOffset_of_not_mem (hne 'Z' (by decide)),
        Iso.readDateTime_eq_error hvisible hyear,
        Pattern.readDate?_eq_none hslash (count_point_text m),
        Pattern.readDateTime?_eq_none hslash (count_point_text m)]
      exact ite_self none

theorem visible_finiteDigits {n : Bool} {c : Nat} {e : Int} :
    ∀ x ∈ finiteDigits n c e, Text.Visible x := by
  obtain ⟨m, htext, -⟩ := exists_numeral n c e
  intro x hx
  rw [← htext] at hx
  exact (notes_of_mem_text hx).visible.1

theorem moment?_finiteDigits (n : Bool) (c : Nat) (e : Int) : moment? (finiteDigits n c e) = none := by
  obtain ⟨m, htext, -, -, -, hlaid⟩ := exists_numeral n c e
  rw [← htext, moment?_numeral hlaid]

theorem number?_finiteDigits {n : Bool} {c : Nat} {e : Int} (h : inRange c e = true) :
    number? (finiteDigits n c e) = some (.finite n c e) := by
  rw [number?, Text.trim_of_visible visible_finiteDigits, read?_text h]
  rfl

end Decimals

end Search

/-! ## Moments -/

/-- A day or a time of a day as it is written. -/
def Moment.iso : Moment → List Char
  | .date d => d.iso
  | .dateTime t => t.iso 'T'

/-- What is read where a moment was written: an offset of no whole seconds is lost. -/
def Moment.asRead : Moment → Moment
  | .date d => .date d
  | .dateTime t => .dateTime t.asRead

/-- Whether a moment has no offset that is lost: one that is not zero and less than a second. -/
def Moment.Legible : Moment → Prop
  | .date _ => True
  | .dateTime t => ∀ o ∈ t.offset, o.micros = 0 ∨ 1000000 ≤ o.micros.natAbs

theorem Moment.asRead_eq_self_iff (m : Moment) : m.asRead = m ↔ m.Legible := by
  cases m with
  | date d => exact iff_of_true rfl trivial
  | dateTime t =>
      obtain ⟨d, clock, o⟩ := t
      cases o with
      | none => exact iff_of_true rfl fun _ h => nomatch h
      | some o => simp [asRead, DateTime.asRead, Legible, Offset.asRead_eq_self_iff]

namespace Search

open Decimal

section Moments

variable {cs : List Char}

theorem mem_dropFirstPoint {c : Char} (h : c ∈ cs) (hne : c ≠ '.') : c ∈ dropFirstPoint cs := by
  rw [← List.takeWhile_append_dropWhile (p := (· != '.')) (l := cs), List.mem_append] at h
  rw [dropFirstPoint, List.mem_append]
  refine h.imp_right fun hdrop => ?_
  cases hrest : cs.dropWhile (· != '.') with
  | nil =>
      rw [hrest] at hdrop
      cases hdrop
  | cons d ds =>
      rw [hrest] at hdrop
      rcases List.mem_cons.mp hdrop with rfl | hds
      · have hpoint := List.head?_dropWhile_not (· != '.') cs
        rw [hrest] at hpoint
        exact absurd (by simpa using hpoint) hne
      · exact hds

/-- A text that begins with a digit and has a hyphen later on is not written with digits alone. -/
theorem isNumeric_of_hyphen {c : Char} (hc : c.isDigit = true) (h : '-' ∈ cs) :
    isNumeric (c :: cs) = false := by
  have hdrop : ((c :: cs).dropWhile fun c => c == '+' || c == '-') = c :: cs :=
    List.dropWhile_cons_of_neg (by rw [isSign_of_isDigit hc]; decide)
  have hmem : '-' ∈ dropFirstPoint (c :: cs) :=
    mem_dropFirstPoint (List.mem_cons_of_mem c h) (by decide)
  have hall : (dropFirstPoint (c :: cs)).all Text.isDigitLike = false :=
    List.all_eq_false.mpr ⟨'-', hmem, by decide +kernel⟩
  rw [isNumeric, hdrop]
  simp only [hall, Bool.and_false]

theorem isNumeric_date (d : Date) (tail : List Char) :
    isNumeric (d.iso ++ tail) = false ∧ (d.iso ++ tail).isEmpty = false := by
  obtain ⟨c, cs, hyear, hc⟩ := Iso.cons_of_padded 3 d.year
  rw [Date.iso, hyear, List.append_assoc, List.cons_append]
  exact ⟨isNumeric_of_hyphen hc (by simp), rfl⟩

theorem notesNumber_iso (m : Moment) : ∀ c ∈ m.iso, Iso.NotesNumber c :=
  match m with
  | .date _ => fun _ hc => Iso.mem_dateIso hc
  | .dateTime t => Iso.notesNumber_dateTime t

theorem visible_iso (m : Moment) : ∀ c ∈ m.iso, Text.Visible c :=
  fun c hc => (notesNumber_iso m c hc).notes.visible

/-- A timestamp is too long for a date. -/
theorem readDate_dateTime (t : DateTime) :
    Iso.readDate (String.ofList (t.iso 'T')) = .error (.unreadable (String.ofList (t.iso 'T'))) := by
  have hwidth : 10 < Iso.octetCount (t.iso 'T') := by
    have hvisible : ∀ c ∈ t.iso 'T', Text.Visible c := visible_iso (.dateTime t)
    rw [Iso.octetCount_of_visible hvisible, DateTime.iso, List.length_append, Iso.length_dateIso,
      List.length_cons]
    omega
  rw [Iso.readDate, String.toList_ofList]
  simp only [if_neg (show ¬ (Iso.octetCount (t.iso 'T') = 7 ∨ Iso.octetCount (t.iso 'T') = 8 ∨
    Iso.octetCount (t.iso 'T') = 10) by omega)]

/-- The text of a moment is that moment. -/
theorem moment?_iso (m : Moment) : moment? m.iso = some m.asRead := by
  rw [moment?, Text.trim_of_visible (visible_iso m)]
  cases m with
  | date d =>
      have hstart := isNumeric_date d []
      rw [List.append_nil] at hstart
      simp only [Moment.iso, hstart, Iso.readDate_iso]
      rfl
  | dateTime t =>
      have hstart := isNumeric_date t.date ('T' :: (t.clock.iso ++ Offset.isoIfAny t.offset))
      have hZ : 'Z' ∉ t.iso 'T' := fun h => (Iso.notesNumber_dateTime t 'Z' h).ne rfl
      rw [← DateTime.iso] at hstart
      simp only [Moment.iso, hstart, readDate_dateTime, spellOffset_of_not_mem hZ,
        Iso.readDateTime_written]
      rfl

end Moments

/-! ## Whole texts -/

section Whole

variable {a b : List Char}

theorem splitOn_written (ha : ∀ c ∈ a, Text.Visible c) (hb : ∀ c ∈ b, Text.Visible c) :
    Text.splitOn separator (a ++ (separator ++ b)) = [a, b] := by
  have hblank : ∀ cs : List Char, (∀ c ∈ cs, Text.Visible c) → ' ' ∉ cs :=
    fun cs hcs hmem => (hcs ' ' hmem).ne_blank rfl
  rw [separator, Text.splitOn_append (hblank a ha), Text.splitOn_of_not_mem (hblank b hb)]

theorem ofText_visible (ha : ∀ c ∈ a, Text.Visible c) : ofText (String.ofList a) = single a := by
  rw [ofText, String.toList_ofList, separator,
    Text.splitOn_of_not_mem fun hmem => (ha ' ' hmem).ne_blank rfl]

theorem ofText_pair (ha : ∀ c ∈ a, Text.Visible c) (hb : ∀ c ∈ b, Text.Visible c) {s : Search}
    (h : range? a b = some s) : ofText (String.ofList (a ++ (separator ++ b))) = s := by
  rw [ofText, String.toList_ofList, splitOn_written ha hb]
  simp only [h, Option.getD_some]

theorem smaller_larger {a b : Decimal} {p q : ℚ} (ha : a.rational? = some p)
    (hb : b.rational? = some q) :
    smaller a b ∈ [a, b] ∧ (smaller a b).rational? = some (min p q) ∧
      larger a b ∈ [a, b] ∧ (larger a b).rational? = some (max p q) := by
  have hcompare : b.compareValue a = some (cmp q p) := compareValue_of_rational hb ha
  rw [smaller, larger, hcompare]
  rcases lt_trichotomy q p with h | rfl | h
  · rw [(cmp_eq_lt_iff q p).mpr h]
    simp [ha, hb, h.le]
  · rw [cmp_self_eq_eq]
    simp [ha]
  · rw [(cmp_eq_gt_iff q p).mpr h]
    simp [ha, hb, h.le]

theorem ofText_iso (m : Moment) : ofText (String.ofList m.iso) = .moment m.asRead := by
  rw [ofText_visible (visible_iso m), single, moment?_iso]

theorem ofText_isos (m m' : Moment) :
    ofText (String.ofList (m.iso ++ (separator ++ m'.iso))) = .moments m.asRead m'.asRead := by
  refine ofText_pair (visible_iso m) (visible_iso m') ?_
  rw [range?, moment?_iso, moment?_iso]

variable {n n' : Bool} {c c' : Nat} {e e' : Int}

theorem ofText_decimal (h : inRange c e = true) :
    ofText (Decimal.finite n c e).text = .number (.finite n c e) := by
  rw [Decimal.text, ofText_visible visible_finiteDigits, single, moment?_finiteDigits,
    number?_finiteDigits h]

theorem ofText_decimals (h : inRange c e = true) (h' : inRange c' e' = true) :
    ofText ((Decimal.finite n c e).text ++ String.ofList separator ++
        (Decimal.finite n' c' e').text) =
      .numbers (smaller (.finite n c e) (.finite n' c' e'))
        (larger (.finite n c e) (.finite n' c' e')) := by
  rw [Decimal.text, Decimal.text, ← String.ofList_append, ← String.ofList_append, List.append_assoc]
  refine ofText_pair visible_finiteDigits visible_finiteDigits ?_
  rw [range?, moment?_finiteDigits, number?_finiteDigits h, number?_finiteDigits h']

/-- Decimals and moments are found in a search as they were written. Two decimals are a range from the
smaller one to the larger one, and two moments are one from the first to the last, each of its own kind;
one decimal or one moment is itself. Of all that was written only an offset that is not zero and less than
a second is lost. -/
theorem written_is_understood (h : inRange c e = true) (h' : inRange c' e' = true) (m m' : Moment) :
    (∃ low high, ofText ((Decimal.finite n c e).text ++ String.ofList separator ++
        (Decimal.finite n' c' e').text) = .numbers low high ∧
      low ∈ [Decimal.finite n c e, .finite n' c' e'] ∧
      low.rational? = some (min (signed n c e) (signed n' c' e')) ∧
      high ∈ [Decimal.finite n c e, .finite n' c' e'] ∧
      high.rational? = some (max (signed n c e) (signed n' c' e'))) ∧
    ofText (Decimal.finite n c e).text = .number (.finite n c e) ∧
    ofText (String.ofList (m.iso ++ (separator ++ m'.iso))) = .moments m.asRead m'.asRead ∧
    ofText (String.ofList m.iso) = .moment m.asRead ∧
    (m.asRead = m ↔ m.Legible) :=
  ⟨⟨_, _, ofText_decimals h h', smaller_larger rfl rfl⟩, ofText_decimal h, ofText_isos m m',
    ofText_iso m, m.asRead_eq_self_iff⟩

end Whole

/-- A microsecond ahead of universal time. -/
def microAhead : DateTime := ⟨⟨2024, 1, 1, by decide⟩, Clock.midnight, some ⟨1, by decide⟩⟩

theorem written_is_understood_debt :
    inRange 5 2 = true ∧ inRange 150 (-2) = true ∧
    ofText "-5E+2" = .number (.finite true 5 2) ∧
    (∃ low high, ofText "-5E+2 - 1.50" = .numbers low high) ∧
    ofText "2024-01-01 - 2024-01-01T00:00:00+00:00:00.000001" =
      .moments (.date microAhead.date) (.dateTime microAhead.asRead) := by
  have h : inRange 5 2 = true := by decide
  have h' : inRange 150 (-2) = true := by decide
  have hdebt : (Decimal.finite true 5 2).text = "-5E+2" := by decide +kernel
  have hprice : (Decimal.finite false 150 (-2)).text = "1.50" := by decide +kernel
  obtain ⟨⟨low, high, hrange, -⟩, hnumber, hmoments, -⟩ :=
    @written_is_understood true false 5 150 2 (-2) h h' (.date microAhead.date) (.dateTime microAhead)
  rw [hdebt] at hrange hnumber
  rw [hprice] at hrange
  exact ⟨h, h', hnumber, ⟨low, high, hrange⟩, hmoments⟩

/-- What is lost makes another moment of the one that was written. -/
theorem microAhead_misread :
    String.ofList (microAhead.iso 'T') = "2024-01-01T00:00:00+00:00:00.000001" ∧
    ∃ t, ofText "2024-01-01T00:00:00+00:00:00.000001" = .moment (.dateTime t) ∧
      t ≠ microAhead ∧ t.compare? microAhead ≠ some .eq := by
  have htext : String.ofList (microAhead.iso 'T') = "2024-01-01T00:00:00+00:00:00.000001" := by
    decide +kernel
  refine ⟨htext, microAhead.asRead, ?_, by decide, by decide⟩
  rw [← htext]
  exact ofText_iso (.dateTime microAhead)

end Search

end Rowgate
