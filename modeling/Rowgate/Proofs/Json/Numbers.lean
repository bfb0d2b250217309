import Mathlib.Data.List.TakeWhile
import Rowgate.Proofs.Json.Grammar

/-!
# Numbers as the grammar has them

What the reader makes of a number, stated against the grammar. A number goes on as far as it can:
every text that begins with the digits of a number begins with one number that ends there
(`exists_numeral`), and that is the number that is read, unless it is too large
(`readUnsigned_of_readable`).
-/

namespace Rowgate.Json

/-! ## How a number begins and ends -/

theorem startsNoDigit_cons {c : Char} (h : c.isDigit = false) (cs : List Char) :
    startsNoDigit (c :: cs) := by
  rintro _ ⟨⟩
  exact h

theorem startsNoDigit_dropWhile (cs : List Char) : startsNoDigit (cs.dropWhile Char.isDigit) := by
  intro c hc
  cases h : cs.dropWhile Char.isDigit with
  | nil =>
      rw [h] at hc
      cases hc
  | cons d ds =>
      rw [h] at hc
      cases hc
      have hne : cs.dropWhile Char.isDigit ≠ [] := by
        rw [h]
        exact List.cons_ne_nil c ds
      have hhead := List.head_dropWhile_not Char.isDigit hne
      simpa only [h, List.head_cons] using hhead

namespace Power

variable (p : Power)

theorem not_isDigit_mark : p.mark.isDigit = false := by
  rcases p.isMark with h | h <;> rw [h] <;> decide

theorem startsNoDigit_text (rest : List Char) : startsNoDigit (p.text ++ rest) :=
  startsNoDigit_cons p.not_isDigit_mark _

theorem not_beginsFraction (rest : List Char) : ¬ BeginsFraction (p.text ++ rest) := by
  rintro ⟨d, ds, heq, -⟩
  rcases p.isMark with h | h <;> rw [text, h] at heq <;> cases (List.cons.inj heq).1

/-- The sign of an exponent is told from its digits. -/
theorem exponentSign_eq (rest : List Char) :
    exponentSign (p.sign ++ (p.digits ++ rest)) = (p.sign, p.digits ++ rest) := by
  rcases p.isSign with h | h | h
  · rw [h, List.nil_append]
    cases hdigits : p.digits with
    | nil => exact absurd hdigits p.nonempty
    | cons d ds =>
        have hd := p.areDigits d (by rw [hdigits]; exact List.mem_cons_self)
        rw [List.cons_append, exponentSign]
        · rintro _ ⟨⟩
          exact absurd hd (by decide)
        · rintro _ ⟨⟩
          exact absurd hd (by decide)
  · rw [h]
    rfl
  · rw [h]
    rfl

theorem splitSign_eq : splitSign (p.sign ++ p.digits) = (decide (p.sign = ['-']), p.digits) := by
  rcases p.isSign with h | h | h
  · rw [h, List.nil_append, splitSign_of_isDigit p.areDigits]
    rfl
  · rw [h]
    rfl
  · rw [h]
    rfl

end Power

/-- An exponent is read up to where its digits end. -/
theorem exponentDigits_text (p : Power) {rest : List Char} (h : startsNoDigit rest) :
    exponentDigits (p.text ++ rest) = (p.text, rest) := by
  have hhead : (p.digits ++ rest).head?.any Char.isDigit = true := by
    cases hdigits : p.digits with
    | nil => exact absurd hdigits p.nonempty
    | cons d ds => exact p.areDigits d (by rw [hdigits]; exact List.mem_cons_self)
  rw [Power.text, List.cons_append, exponentDigits, if_pos p.isMark, List.append_assoc,
    p.exponentSign_eq]
  dsimp only
  rw [if_pos hhead, takeWhile_digits p.areDigits h, dropWhile_digits p.areDigits h]

theorem exponentSign_cases (cs : List Char) :
    ∃ sign rest, exponentSign cs = (sign, rest) ∧ cs = sign ++ rest ∧
      (sign = [] ∨ sign = ['+'] ∨ sign = ['-']) := by
  rw [exponentSign.eq_def]
  split
  · exact ⟨['+'], _, rfl, rfl, Or.inr (Or.inl rfl)⟩
  · exact ⟨['-'], _, rfl, rfl, Or.inr (Or.inr rfl)⟩
  · exact ⟨[], _, rfl, rfl, Or.inl rfl⟩

/-- No exponent is read where none stands. -/
theorem exponentDigits_of_not {cs : List Char} (h : ¬ BeginsPower cs) :
    exponentDigits cs = ([], cs) := by
  cases cs with
  | nil => rfl
  | cons c cs =>
      rw [exponentDigits]
      split
      · next hmark =>
          obtain ⟨sign, rest, heq, rfl, hsign⟩ := exponentSign_cases cs
          rw [heq]
          dsimp only
          cases rest with
          | nil => rfl
          | cons d rest =>
              by_cases hd : d.isDigit = true
              · exact absurd ⟨⟨c, sign, [d], hmark, hsign, List.forall_mem_singleton.mpr hd,
                  List.cons_ne_nil d []⟩, rest, by simp [Power.text]⟩ h
              · rw [if_neg (by simpa using hd)]
      · rfl

/-- The digits after a point are read up to where they end. -/
theorem fractionDigits_pointed {fraction rest : List Char}
    (hdigits : ∀ d ∈ fraction, d.isDigit = true) (hend : fraction ≠ [] → startsNoDigit rest)
    (hnone : fraction = [] → ¬ BeginsFraction rest) :
    fractionDigits (Numeral.pointed fraction ++ rest) = (Numeral.pointed fraction, rest) := by
  cases fraction with
  | nil =>
      rw [Numeral.pointed, List.nil_append, fractionDigits.eq_def]
      split
      · next c cs =>
          rw [if_neg fun hc => hnone rfl ⟨c, cs, rfl, hc⟩]
      · rfl
  | cons d ds =>
      have hds : ∀ x ∈ ds, x.isDigit = true := fun x hx => hdigits x (List.mem_cons_of_mem _ hx)
      have hrest := hend (List.cons_ne_nil d ds)
      rw [Numeral.pointed, List.cons_append, List.cons_append, fractionDigits,
        if_pos (hdigits d List.mem_cons_self), takeWhile_digits hds hrest,
        dropWhile_digits hds hrest]

theorem wholeDigits?_append {whole rest : List Char} (hw : ∀ d ∈ whole, d.isDigit = true)
    (hzero : whole = ['0'] ∨ whole ≠ [] ∧ whole.head? ≠ some '0') (hrest : startsNoDigit rest) :
    wholeDigits? (whole ++ rest) = some (whole, rest) := by
  rcases hzero with rfl | ⟨hne, hhead⟩
  · rfl
  · cases whole with
    | nil => exact absurd rfl hne
    | cons d ds =>
        have hds : ∀ c ∈ ds, c.isDigit = true := fun c hc => hw c (List.mem_cons_of_mem _ hc)
        rw [List.cons_append, wholeDigits?, if_pos (hw d List.mem_cons_self),
          takeWhile_digits hds hrest, dropWhile_digits hds hrest]
        exact fun h => hhead (by rw [h]; rfl)

/-- The digits before the point are read up to where they end, and after a zero they have ended. -/
theorem wholeDigits?_whole (n : Numeral) {rest : List Char}
    (hend : n.whole ≠ ['0'] → startsNoDigit rest) :
    wholeDigits? (n.whole ++ rest) = some (n.whole, rest) := by
  by_cases hzero : n.whole = ['0']
  · rw [hzero]
    rfl
  · exact wholeDigits?_append n.areWhole n.start (hend hzero)

/-! ## Numbers -/

namespace Numeral

variable {n : Numeral} {rest : List Char}

theorem whole_ne_nil (n : Numeral) : n.whole ≠ [] := by
  rcases n.start with h | h
  · rw [h]
    exact List.cons_ne_nil _ _
  · exact h.1

theorem isInteger_iff : n.isInteger = true ↔ n.fraction = [] ∧ n.power = none := by
  rw [isInteger, Bool.and_eq_true, List.isEmpty_iff, Option.isNone_iff_eq_none]

theorem pointed_eq_nil {fraction : List Char} : pointed fraction = [] ↔ fraction = [] := by
  cases fraction with
  | nil => exact Iff.rfl
  | cons d ds => exact ⟨nofun, nofun⟩

theorem powerText_eq_nil : n.powerText = [] ↔ n.power = none := by
  rw [powerText]
  cases n.power with
  | none => exact ⟨fun _ => rfl, fun _ => rfl⟩
  | some p => exact ⟨nofun, nofun⟩

theorem isInteger_eq : n.isInteger = ((pointed n.fraction).isEmpty && n.powerText.isEmpty) := by
  rw [Bool.eq_iff_iff, isInteger_iff, Bool.and_eq_true, List.isEmpty_iff, List.isEmpty_iff,
    pointed_eq_nil, powerText_eq_nil]

theorem EndsBefore.exponentDigits_eq (h : n.EndsBefore rest) :
    exponentDigits (n.powerText ++ rest) = (n.powerText, rest) := by
  cases hpower : n.power with
  | none =>
      rw [powerText_eq_nil.mpr hpower, List.nil_append]
      exact exponentDigits_of_not (h.power hpower)
  | some p =>
      have hpart : n.powerText = p.text := by rw [powerText, hpower]; rfl
      have hinteger : n.isInteger = false := by
        rw [← Bool.not_eq_true, isInteger_iff, hpower]
        exact fun h => nomatch h.2
      rw [hpart]
      exact exponentDigits_text p (h.digits (Or.inl hinteger))

/-- What follows the digits of a number after its point. -/
theorem EndsBefore.startsNoDigit_power (h : n.EndsBefore rest)
    (hn : n.fraction ≠ [] ∨ n.whole ≠ ['0']) : startsNoDigit (n.powerText ++ rest) := by
  cases hpower : n.power with
  | none =>
      rw [powerText_eq_nil.mpr hpower, List.nil_append]
      refine h.digits (hn.imp_left fun hfraction => ?_)
      rw [← Bool.not_eq_true, isInteger_iff]
      exact fun hinteger => hfraction hinteger.1
  | some p =>
      have hpart : n.powerText = p.text := by rw [powerText, hpower]; rfl
      rw [hpart]
      exact p.startsNoDigit_text rest

theorem EndsBefore.fractionDigits_eq (h : n.EndsBefore rest) :
    fractionDigits (pointed n.fraction ++ (n.powerText ++ rest)) =
      (pointed n.fraction, n.powerText ++ rest) := by
  refine fractionDigits_pointed n.areFraction (fun hne => h.startsNoDigit_power (Or.inl hne))
    fun hnil => ?_
  cases hpower : n.power with
  | none =>
      rw [powerText_eq_nil.mpr hpower, List.nil_append]
      exact h.fraction (isInteger_iff.mpr ⟨hnil, hpower⟩)
  | some p =>
      have hpart : n.powerText = p.text := by rw [powerText, hpower]; rfl
      rw [hpart]
      exact p.not_beginsFraction rest

theorem EndsBefore.wholeDigits?_eq (h : n.EndsBefore rest) :
    wholeDigits? (n.whole ++ (pointed n.fraction ++ (n.powerText ++ rest))) =
      some (n.whole, pointed n.fraction ++ (n.powerText ++ rest)) := by
  refine wholeDigits?_whole n fun hzero => ?_
  cases hfraction : n.fraction with
  | nil =>
      rw [pointed, List.nil_append]
      exact h.startsNoDigit_power (Or.inr hzero)
  | cons d ds => exact startsNoDigit_cons rfl _

/-- The exponent of a decimal in the text of a number. -/
theorem readExponent?_powerText (n : Numeral) :
    Decimal.readExponent? n.powerText = some ((n.power.map Power.value).getD 0) := by
  rw [powerText]
  cases n.power with
  | none => rfl
  | some p =>
      have hmark : p.mark.toLower = 'e' := by
        rcases p.isMark with h | h <;> rw [h] <;> rfl
      have hdigits : (!p.digits.isEmpty && p.digits.all Char.isDigit) = true := by
        rw [Bool.and_eq_true, Bool.not_eq_true', List.isEmpty_eq_false_iff, List.all_eq_true]
        exact ⟨p.nonempty, p.areDigits⟩
      show Decimal.readExponent? (p.mark :: (p.sign ++ p.digits)) = some p.value
      rw [Decimal.readExponent?, if_pos hmark, p.splitSign_eq]
      dsimp only
      rw [if_pos hdigits, Power.value]
      by_cases hsign : p.sign = ['-']
      · rw [if_pos hsign, if_pos (decide_eq_true hsign)]
      · rw [if_neg hsign, if_neg (by simpa using hsign)]

/-- The text of a number is read as the decimal with its digits, if the exponent is in range. -/
theorem decimal_unsigned (n : Numeral) (negative : Bool) :
    Decimal.readUnsigned? negative n.unsigned =
      if Decimal.inRange n.coefficient n.exponent then
        some (.finite negative n.coefficient n.exponent) else none := by
  have hpower : startsNoDigit n.powerText := by
    rw [powerText]
    cases n.power with
    | none => rintro _ ⟨⟩
    | some p => exact startsNoDigit_cons p.not_isDigit_mark _
  have hpointed : startsNoDigit (pointed n.fraction ++ n.powerText) := by
    cases n.fraction with
    | nil => exact hpower
    | cons d ds => exact startsNoDigit_cons rfl _
  have hfraction : Decimal.splitFraction (pointed n.fraction ++ n.powerText) =
      (n.fraction, n.powerText) := by
    cases hf : n.fraction with
    | nil =>
        rw [pointed, List.nil_append, Decimal.splitFraction]
        intro cs heq
        have hexponent := n.readExponent?_powerText
        rw [heq] at hexponent
        cases hexponent
    | cons d ds =>
        have hds : ∀ x ∈ d :: ds, x.isDigit = true := hf ▸ n.areFraction
        rw [pointed, List.cons_append, Decimal.splitFraction, takeWhile_digits hds hpower,
          dropWhile_digits hds hpower]
  have hword : Decimal.readUnsigned? negative n.unsigned =
      Decimal.readFinite? negative n.unsigned := by
    rw [unsigned]
    cases hwhole : n.whole with
    | nil => exact absurd hwhole n.whole_ne_nil
    | cons d ds =>
        exact Decimal.readUnsigned?_of_isDigit
          (n.areWhole d (by rw [hwhole]; exact List.mem_cons_self)) negative _
  rw [hword, Decimal.readFinite?, unsigned, takeWhile_digits n.areWhole hpointed,
    dropWhile_digits n.areWhole hpointed, hfraction]
  dsimp only
  rw [if_neg (by simp [n.whole_ne_nil]), n.readExponent?_powerText]
  rfl

end Numeral

/-- How a number without its sign is read. -/
theorem readUnsigned_unsigned {n : Numeral} {rest : List Char} (h : n.EndsBefore rest)
    (left : Nat) (negative : Bool) :
    readUnsigned left negative (n.unsigned ++ rest) =
      if n.isInteger then
        match integerOfDigits negative n.whole with
        | .ok i => .ok (.int i, rest)
        | .error e => .error (.integer e)
      else
        match Decimal.readUnsigned? negative n.unsigned with
        | some d => .ok (.decimal d, rest)
        | none => .error .exponent := by
  rw [readUnsigned, Numeral.unsigned, List.append_assoc, List.append_assoc, h.wholeDigits?_eq]
  dsimp only
  rw [h.fractionDigits_eq]
  dsimp only
  rw [h.exponentDigits_eq]
  dsimp only
  rewrite [← Numeral.isInteger_eq, List.append_assoc]
  rfl

/-- A number within the limits is read as its value. -/
theorem readUnsigned_of_readable {n : Numeral} {rest : List Char} (h : n.EndsBefore rest)
    (hn : n.Readable) (left : Nat) :
    readUnsigned left n.negative (n.unsigned ++ rest) = .ok (n.value, rest) := by
  rw [readUnsigned_unsigned h, Numeral.value]
  rw [Numeral.Readable] at hn
  split
  · next hinteger =>
      rw [if_pos hinteger] at hn
      rw [integerOfDigits, if_neg (Nat.not_lt.mpr hn)]
  · next hinteger =>
      rw [if_neg hinteger] at hn
      rw [n.decimal_unsigned, if_pos hn]

/-- A number beyond the limits stops the reader, and not because it were malformed. -/
theorem readUnsigned_of_not_readable {n : Numeral} {rest : List Char} (h : n.EndsBefore rest)
    (hn : ¬ n.Readable) (left : Nat) :
    ∃ stop, readUnsigned left n.negative (n.unsigned ++ rest) = .error stop ∧
      stop.isMalformed = false := by
  rw [readUnsigned_unsigned h]
  rw [Numeral.Readable] at hn
  split
  · next hinteger =>
      rw [if_pos hinteger] at hn
      rw [integerOfDigits, if_pos (Nat.not_le.mp hn)]
      exact ⟨_, rfl, rfl⟩
  · next hinteger =>
      rw [if_neg hinteger] at hn
      rw [n.decimal_unsigned, if_neg hn]
      exact ⟨_, rfl, rfl⟩

/-! ## The number that comes first -/

/-- An exponent goes on as far as its digits do. -/
theorem BeginsPower.longest {cs : List Char} (h : BeginsPower cs) :
    ∃ (p : Power) (rest : List Char), cs = p.text ++ rest ∧ startsNoDigit rest := by
  obtain ⟨p, rest, rfl⟩ := h
  refine ⟨{ p with
    digits := p.digits ++ rest.takeWhile Char.isDigit
    areDigits := fun d hd => (List.mem_append.mp hd).elim (p.areDigits d) List.mem_takeWhile_imp
    nonempty := List.append_ne_nil_of_left_ne_nil p.nonempty _ }, rest.dropWhile Char.isDigit, ?_,
    startsNoDigit_dropWhile rest⟩
  simp [Power.text, List.takeWhile_append_dropWhile]

/-- The digits after a point go on as far as they can. -/
theorem BeginsFraction.longest {cs : List Char} (h : BeginsFraction cs) :
    ∃ fraction rest, cs = Numeral.pointed fraction ++ rest ∧ fraction ≠ [] ∧
      (∀ d ∈ fraction, d.isDigit = true) ∧ startsNoDigit rest := by
  obtain ⟨d, rest, rfl, hd⟩ := h
  refine ⟨d :: rest.takeWhile Char.isDigit, rest.dropWhile Char.isDigit, ?_,
    List.cons_ne_nil _ _, ?_, startsNoDigit_dropWhile rest⟩
  · simp [Numeral.pointed, List.takeWhile_append_dropWhile]
  · exact fun c hc => (List.mem_cons.mp hc).elim (fun h => h ▸ hd) List.mem_takeWhile_imp

/-- The digits before a point are a zero, or they go on as far as they can. -/
theorem exists_whole {d : Char} (hd : d.isDigit = true) (cs : List Char) :
    ∃ whole rest, d :: cs = whole ++ rest ∧ (∀ c ∈ whole, c.isDigit = true) ∧
      (whole = ['0'] ∨ whole ≠ [] ∧ whole.head? ≠ some '0') ∧
      (whole ≠ ['0'] → startsNoDigit rest) := by
  by_cases hzero : d = '0'
  · subst hzero
    exact ⟨['0'], cs, rfl, List.forall_mem_singleton.mpr hd, Or.inl rfl, fun h => absurd rfl h⟩
  · refine ⟨d :: cs.takeWhile Char.isDigit, cs.dropWhile Char.isDigit, ?_, ?_,
      Or.inr ⟨List.cons_ne_nil _ _, ?_⟩, fun _ => startsNoDigit_dropWhile cs⟩
    · rw [List.cons_append, List.takeWhile_append_dropWhile]
    · exact fun c hc => (List.mem_cons.mp hc).elim (fun h => h ▸ hd) List.mem_takeWhile_imp
    · exact fun h => hzero (Option.some.inj h)

/-- What begins with a digit begins with a number that ends there. -/
theorem exists_numeral (negative : Bool) {d : Char} (hd : d.isDigit = true) (cs : List Char) :
    ∃ (n : Numeral) (rest : List Char), n.negative = negative ∧ d :: cs = n.unsigned ++ rest ∧
      n.EndsBefore rest := by
  obtain ⟨whole, rest, hwhole, areWhole, start, hend⟩ := exists_whole hd cs
  obtain ⟨fraction, rest', hrest, areFraction, hfraction, hnofraction⟩ :
      ∃ fraction rest', rest = Numeral.pointed fraction ++ rest' ∧
        (∀ d ∈ fraction, d.isDigit = true) ∧
        (fraction ≠ [] ∨ whole ≠ ['0'] → startsNoDigit rest') ∧
        (fraction = [] → ¬ BeginsFraction rest') := by
    by_cases h : BeginsFraction rest
    · obtain ⟨fraction, rest', heq, hne, hdigits, hrest⟩ := h.longest
      exact ⟨fraction, rest', heq, hdigits, fun _ => hrest, fun hnil => absurd hnil hne⟩
    · exact ⟨[], rest, rfl, nofun, fun hn => hend (hn.resolve_left fun hne => hne rfl), fun _ => h⟩
  by_cases hpower : BeginsPower rest'
  · obtain ⟨p, tail, heq, htail⟩ := hpower.longest
    refine ⟨⟨negative, whole, fraction, some p, areWhole, start, areFraction⟩, tail, rfl, ?_,
      fun _ => htail, fun hinteger => ?_, nofun⟩
    · rw [hwhole, hrest, heq, Numeral.unsigned, List.append_assoc, List.append_assoc]
      rfl
    · exact absurd (Numeral.isInteger_iff.mp hinteger).2 nofun
  · refine ⟨⟨negative, whole, fraction, none, areWhole, start, areFraction⟩, rest', rfl, ?_,
      fun hn => hfraction (hn.imp_left fun hinteger hnil => ?_),
      fun hinteger => hnofraction (Numeral.isInteger_iff.mp hinteger).1, fun _ => hpower⟩
    · rw [hwhole, hrest, Numeral.unsigned, List.append_assoc, List.append_assoc]
      rfl
    · rw [Numeral.isInteger_iff.mpr ⟨hnil, rfl⟩] at hinteger
      cases hinteger

/-! ## Numbers as values -/

/-- What begins with a digit is a number. -/
theorem readAtom_of_isDigit {d : Char} (h : d.isDigit = true) (cs : List Char) :
    readAtom (d :: cs) = readUnsigned (cs.length + 1) false (d :: cs) := by
  rw [readAtom.eq_def]
  split
  all_goals first
    | rfl
    | next heq =>
        cases (List.cons.inj heq).1
        exact absurd h (by decide)

/-- What begins with a minus sign and a digit is a number. -/
theorem readAtom_minus {d : Char} (h : d.isDigit = true) (cs : List Char) :
    readAtom ('-' :: d :: cs) = readUnsigned (cs.length + 2) true (d :: cs) := by
  rw [readAtom.eq_def]
  split
  · next heq => cases (List.cons.inj heq).1
  · next heq => cases (List.cons.inj heq).1
  · next heq => cases (List.cons.inj heq).1
  · next heq => cases (List.cons.inj heq).1
  · next heq => cases (List.cons.inj heq).1
  · next heq => cases (List.cons.inj heq).1
  · next heq =>
      cases (List.cons.inj (List.cons.inj heq).2).1
      exact absurd h (by decide)
  · next heq =>
      rw [← (List.cons.inj heq).2]
      rfl
  · next hminus => exact absurd rfl (hminus _)

end Rowgate.Json
