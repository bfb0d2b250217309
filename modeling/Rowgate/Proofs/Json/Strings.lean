import Rowgate.Proofs.Json.Grammar

/-!
# Strings as the grammar has them

What the reader makes of a string, stated against the grammar: what it reads is written between the
quotes (`quoted_of_readString`), and what may stand between quotes is read (`readString_quoted`).
A string needs no care about what follows it, since its closing quote ends it. Only halves of
surrogate pairs need a look ahead, at the escape that follows.
-/

namespace Rowgate.Json

/-! ## What a string is read from -/

/-- A text is read and something is put before it. -/
theorem prepend_eq_ok {c : Char} {r : Except Stop (List Char × List Char)} {text rest : List Char}
    (h : prepend c r = .ok (text, rest)) : ∃ tail, r = .ok (tail, rest) ∧ text = c :: tail := by
  cases r with
  | error stop => cases h
  | ok read =>
      obtain ⟨tail, rest'⟩ := read
      cases h
      exact ⟨tail, rfl, rfl⟩

/-- The low half that comes first in a string comes first in what the string is written as. -/
theorem not_beginsLow {written : List Char} (rest : List Char)
    (h : ∀ a b c d last rest' low, written ++ '"' :: rest =
      '\\' :: 'u' :: a :: b :: c :: d :: last :: rest' → code? a b c d = some low →
        Text.isLowSurrogate low = false) : ¬ BeginsLow written := by
  rintro ⟨a, b, c, d, tail, low, rfl, hcode, hlow⟩
  cases tail with
  | nil =>
      have := h a b c d '"' rest low rfl hcode
      rw [hlow] at this
      cases this
  | cons last tail =>
      have := h a b c d last (tail ++ '"' :: rest) low rfl hcode
      rw [hlow] at this
      cases this

/-- What is read as a text stands in quotes for that text. -/
theorem quoted_of_readString {start : Nat} {cs text rest : List Char}
    (h : readString start cs = .ok (text, rest)) :
    ∃ written, cs = written ++ '"' :: rest ∧ Quoted written text := by
  fun_induction readString start cs generalizing text
  case case2 =>
    cases h
    exact ⟨[], rfl, .nil⟩
  case case6 a b c d high hhigh isHigh e f g h' last tail low hlow isLow ih =>
    obtain ⟨text', hread, rfl⟩ := prepend_eq_ok h
    obtain ⟨written, heq, hquoted⟩ := ih hread
    rw [heq]
    exact ⟨_, rfl, .pair hhigh hlow isHigh isLow hquoted⟩
  case case7 a b c d high hhigh isHigh e f g h' last tail low hlow notLow ih =>
    obtain ⟨text', hread, rfl⟩ := prepend_eq_ok h
    obtain ⟨written, heq, hquoted⟩ := ih hread
    rw [heq]
    refine ⟨_, rfl, .code hhigh (fun _ => not_beginsLow rest ?_) hquoted⟩
    rintro a b c d last rest' low' heq' hcode
    cases heq.trans heq'
    cases hcode.symm.trans hlow
    rwa [Bool.not_eq_true] at notLow
  case case8 a b c d high hhigh isHigh next tail hother ih =>
    obtain ⟨text', hread, rfl⟩ := prepend_eq_ok h
    obtain ⟨written, heq, hquoted⟩ := ih hread
    rw [heq]
    refine ⟨_, rfl, .code hhigh (fun _ => not_beginsLow rest ?_) hquoted⟩
    rintro a b c d last rest' low heq' hcode
    cases heq.trans heq'
    exact (hother _ _ _ _ _ _ rfl rfl).elim
  case case9 a b c d next tail n hn notHigh ih =>
    obtain ⟨text', hread, rfl⟩ := prepend_eq_ok h
    obtain ⟨written, heq, hquoted⟩ := ih hread
    rw [heq]
    exact ⟨_, rfl, .code hn (fun isHigh => absurd isHigh notHigh) hquoted⟩
  case case11 c tail _ _ d hd ih =>
    obtain ⟨text', hread, rfl⟩ := prepend_eq_ok h
    obtain ⟨written, rfl, hquoted⟩ := ih hread
    exact ⟨_, rfl, .short hd hquoted⟩
  case case14 c tail hquote hend _ _ hstroke hcontrol ih =>
    obtain ⟨text', hread, rfl⟩ := prepend_eq_ok h
    obtain ⟨written, heq, hquoted⟩ := ih hread
    rw [heq]
    refine ⟨_, rfl, .plain hquote (fun hc => ?_) hcontrol hquoted⟩
    cases tail with
    | nil => exact hend hc rfl
    | cons d tail => exact hstroke d tail hc rfl
  all_goals cases h

theorem isMalformed_of_prepend {c : Char} {r : Except Stop (List Char × List Char)} {stop : Stop}
    (h : prepend c r = .error stop) : r = .error stop := by
  cases r with
  | error stop' =>
      cases h
      rfl
  | ok read => cases h

/-- What is refused as a text is malformed. -/
theorem isMalformed_of_readString {start : Nat} {cs : List Char} {stop : Stop}
    (h : readString start cs = .error stop) : stop.isMalformed = true := by
  fun_induction readString start cs
  case case2 => cases h
  case case6 ih => exact ih (isMalformed_of_prepend h)
  case case7 ih => exact ih (isMalformed_of_prepend h)
  case case8 ih => exact ih (isMalformed_of_prepend h)
  case case9 ih => exact ih (isMalformed_of_prepend h)
  case case11 ih => exact ih (isMalformed_of_prepend h)
  case case14 ih => exact ih (isMalformed_of_prepend h)
  all_goals
    cases h
    rfl

/-! ## What is read of a string -/

/-- A short escape is read as its character. -/
theorem readString_short {start : Nat} {c d : Char} (hc : c ≠ 'u') (hd : shortEscape? c = some d)
    (rest : List Char) :
    readString start ('\\' :: c :: rest) = prepend d (readString start rest) := by
  rw [readString]
  · rw [hd]
  · exact fun _ _ _ _ _ _ h => absurd h hc
  · exact fun h => absurd h hc

/-- A character without an escape is read as itself. -/
theorem readString_plain {start : Nat} {c : Char} (hq : c ≠ '"') (hb : c ≠ '\\')
    (hc : ¬ c.toNat < 0x20) (rest : List Char) :
    readString start (c :: rest) = prepend c (readString start rest) := by
  rw [readString]
  · rw [if_neg hc]
  · exact fun h => absurd h hq
  · exact fun h => absurd h hb
  · exact fun _ _ _ _ _ _ h => absurd h hb
  · exact fun _ h => absurd h hb
  · exact fun _ _ h => absurd h hb

/-- An escape is read as its code if it is no high half, or no low half follows it. -/
theorem readString_alone {start n : Nat} {a b c d next : Char} {rest : List Char}
    (hn : code? a b c d = some n)
    (halone : Text.isHighSurrogate n = true → ∀ e f g h last tail, next = '\\' →
      rest = 'u' :: e :: f :: g :: h :: last :: tail →
        ∃ low, code? e f g h = some low ∧ Text.isLowSurrogate low = false) :
    readString start ('\\' :: 'u' :: a :: b :: c :: d :: next :: rest) =
      prepend (Text.charOf n) (readString start (next :: rest)) := by
  rw [readString, hn]
  dsimp only
  by_cases hhigh : Text.isHighSurrogate n = true
  · rw [if_pos hhigh]
    split
    · next e f g h last tail =>
        obtain ⟨low, hlow, hnot⟩ := halone hhigh e f g h last tail rfl rfl
        rw [hlow]
        dsimp only
        rw [if_neg (by rw [hnot]; exact Bool.false_ne_true)]
    · rfl
  · rw [if_neg hhigh]

/-- A stroke and a `u` in quotes begin an escape by its code. -/
theorem Quoted.exists_code {written text rest cs : List Char} (h : Quoted written text)
    (heq : written ++ '"' :: rest = '\\' :: 'u' :: cs) :
    ∃ a b c d tail n, written = '\\' :: 'u' :: a :: b :: c :: d :: tail ∧ code? a b c d = some n := by
  cases h with
  | nil => cases heq
  | plain _ hstroke => exact absurd (List.cons.inj heq).1 hstroke
  | short hc =>
      cases (List.cons.inj (List.cons.inj heq).2).1
      cases hc
  | code hn => exact ⟨_, _, _, _, _, _, rfl, hn⟩
  | pair hhigh => exact ⟨_, _, _, _, _, _, rfl, hhigh⟩

/-- The escapes of both halves of a surrogate pair are read as one character. -/
theorem readString_pair {start high low : Nat} {a b c d e f g h last : Char} {rest : List Char}
    (hhigh : code? a b c d = some high) (hlow : code? e f g h = some low)
    (isHigh : Text.isHighSurrogate high = true) (isLow : Text.isLowSurrogate low = true) :
    readString start
        ('\\' :: 'u' :: a :: b :: c :: d :: '\\' :: 'u' :: e :: f :: g :: h :: last :: rest) =
      prepend (Text.charOf (Text.joinSurrogates high low)) (readString start (last :: rest)) := by
  rw [readString]
  simp only [hhigh, hlow, isHigh, isLow, if_true]

/-- What stands in quotes for a text is read as that text. -/
theorem readString_quoted {start : Nat} {written text : List Char} (h : Quoted written text)
    (rest : List Char) : readString start (written ++ '"' :: rest) = .ok (text, rest) := by
  -- an escape by its code is read only if some character follows it
  have hnext : ∀ cs : List Char, ∃ next tail, cs ++ '"' :: rest = next :: tail := by
    intro cs
    cases cs with
    | nil => exact ⟨_, _, rfl⟩
    | cons next tail => exact ⟨_, _, rfl⟩
  induction h with
  | nil => rw [List.nil_append, readString]
  | plain hquote hstroke hcontrol _ ih =>
      rw [List.cons_append, readString_plain hquote hstroke hcontrol, ih]
      rfl
  | @short c d hc _ _ _ ih =>
      have hu : c ≠ 'u' := by
        rintro rfl
        cases hc
      rw [List.cons_append, List.cons_append, readString_short hu hc, ih]
      rfl
  | @code a b c d n hn written text halone hquoted ih =>
      obtain ⟨next, tail, heq⟩ := hnext written
      simp only [List.cons_append]
      rw [heq, readString_alone hn ?_, ← heq, ih]
      · rfl
      · rintro hhigh e f g h last tail rfl rfl
        obtain ⟨a', b', c', d', tail', low, rfl, hlow⟩ := hquoted.exists_code heq
        simp only [List.cons_append, List.cons.injEq] at heq
        obtain ⟨-, -, rfl, rfl, rfl, rfl, -⟩ := heq
        refine ⟨low, hlow, Bool.eq_false_iff.mpr fun isLow => ?_⟩
        exact halone hhigh ⟨_, _, _, _, _, low, rfl, hlow, isLow⟩
  | @pair a b c d e f g h high low hhigh hlow isHigh isLow written text _ ih =>
      obtain ⟨next, tail, heq⟩ := hnext written
      simp only [List.cons_append]
      rw [heq, readString_pair hhigh hlow isHigh isLow, ← heq, ih]
      rfl

end Rowgate.Json
