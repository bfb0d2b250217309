import Rowgate.Sql.Pattern
import Rowgate.Store.Evaluate
import Mathlib.Data.List.Infix

/-!
# Texts that a pattern stands for

`like` says which texts a pattern stands for, reading the pattern from the left: a percent sign for
any text, a low line for any character, and a stroke for the character after it. A text that was
escaped stands for itself at its place in a pattern (`like_escape_append`), so the pattern of an
operator stands for exactly the texts that satisfy the operator (`like_patternOf`).

Small letters do not get in the way. The three special characters have no case, and casing neither
produces them nor looks through them, so a pattern in small letters is the pattern of the text in
small letters (`lower_patternOf`), even though the form of a capital sigma depends on what stands
around it.
-/

namespace Rowgate

namespace Sql

/-- Whether a pattern stands for a text. A stroke at the end of a pattern stands for nothing. -/
def like : List Char → List Char → Bool
  | [], text => text.isEmpty
  | c :: p, text =>
    if c = escapeChar then
      match p, text with
      | d :: p, e :: text => d == e && like p text
      | _, _ => false
    else if c = anyText then text.tails.any (like p)
    else
      match text with
      | e :: text => (c == anyChar || c == e) && like p text
      | [] => false

/-- Whether a character has a meaning in a pattern. -/
def isSpecial (c : Char) : Bool := c == escapeChar || c == anyText || c == anyChar

theorem isSpecial_iff {c : Char} :
    isSpecial c = true ↔ c = escapeChar ∨ c = anyText ∨ c = anyChar := by
  simp only [isSpecial, Bool.or_eq_true, beq_iff_eq, or_assoc]

theorem escape_cons_of_isSpecial {c : Char} (h : isSpecial c = true) (cs : List Char) :
    escape (c :: cs) = escapeChar :: c :: escape cs := by
  rw [isSpecial_iff] at h
  simp only [escape, Text.substitute, List.flatMap_cons, escapeOne, if_pos h, List.cons_append,
    List.nil_append]

theorem escape_cons_of_not_isSpecial {c : Char} (h : ¬ isSpecial c = true) (cs : List Char) :
    escape (c :: cs) = c :: escape cs := by
  rw [isSpecial_iff] at h
  simp only [escape, Text.substitute, List.flatMap_cons, escapeOne, if_neg h, List.cons_append,
    List.nil_append]

theorem escape_nil : escape [] = [] := rfl

/-! ## What a pattern of an operator stands for -/

theorem like_escaped (d : Char) (p text : List Char) :
    like (escapeChar :: d :: p) text = true ↔ ∃ rest, text = d :: rest ∧ like p rest = true := by
  rw [like.eq_def]
  simp only [if_true]
  cases text with
  | nil => simp
  | cons e text =>
      simp only [Bool.and_eq_true, beq_iff_eq, List.cons.injEq]
      constructor
      · rintro ⟨rfl, h⟩
        exact ⟨text, ⟨rfl, rfl⟩, h⟩
      · rintro ⟨rest, ⟨rfl, rfl⟩, h⟩
        exact ⟨rfl, h⟩

theorem like_plain {c : Char} (hc : ¬ isSpecial c = true) (p text : List Char) :
    like (c :: p) text = true ↔ ∃ rest, text = c :: rest ∧ like p rest = true := by
  rw [isSpecial_iff, not_or, not_or] at hc
  rw [like.eq_def]
  simp only [if_neg hc.1, if_neg hc.2.1]
  cases text with
  | nil => simp
  | cons e text =>
      simp only [Bool.and_eq_true, Bool.or_eq_true, beq_iff_eq, hc.2.2, false_or, List.cons.injEq]
      constructor
      · rintro ⟨rfl, h⟩
        exact ⟨text, ⟨rfl, rfl⟩, h⟩
      · rintro ⟨rest, ⟨rfl, rfl⟩, h⟩
        exact ⟨rfl, h⟩

/-- A text that was escaped stands for itself, whatever follows it in the pattern. -/
theorem like_escape_append (s p text : List Char) :
    like (escape s ++ p) text = true ↔ ∃ rest, text = s ++ rest ∧ like p rest = true := by
  induction s generalizing text with
  | nil => simp [escape_nil]
  | cons c s ih =>
      by_cases hc : isSpecial c = true
      · rw [escape_cons_of_isSpecial hc, List.cons_append, List.cons_append, like_escaped]
        simp only [ih]
        constructor
        · rintro ⟨_, rfl, rest, rfl, h⟩
          exact ⟨rest, rfl, h⟩
        · rintro ⟨rest, rfl, h⟩
          exact ⟨s ++ rest, rfl, rest, rfl, h⟩
      · rw [escape_cons_of_not_isSpecial hc, List.cons_append, like_plain hc]
        simp only [ih]
        constructor
        · rintro ⟨_, rfl, rest, rfl, h⟩
          exact ⟨rest, rfl, h⟩
        · rintro ⟨rest, rfl, h⟩
          exact ⟨s ++ rest, rfl, rest, rfl, h⟩

theorem like_anyText (p text : List Char) :
    like (anyText :: p) text = true ↔ ∃ rest, rest <:+ text ∧ like p rest = true := by
  rw [like.eq_def]
  simp only [show anyText ≠ escapeChar by decide, if_false, if_true, List.any_eq_true,
    List.mem_tails]

theorem like_anyText_end (text : List Char) : like [anyText] text = true :=
  (like_anyText [] text).mpr ⟨[], List.nil_suffix, rfl⟩

theorem like_escape (s text : List Char) : like (escape s) text = true ↔ text = s := by
  have h := like_escape_append s [] text
  rw [List.append_nil] at h
  rw [h]
  constructor
  · rintro ⟨rest, rfl, hr⟩
    cases rest with
    | nil => rw [List.append_nil]
    | cons c rest => cases hr
  · rintro rfl
    exact ⟨[], (List.append_nil _).symm, rfl⟩

theorem like_escape_anyText (s text : List Char) :
    like (escape s ++ [anyText]) text = true ↔ s <+: text := by
  rw [like_escape_append]
  constructor
  · rintro ⟨rest, rfl, _⟩
    exact List.prefix_append s rest
  · rintro ⟨rest, rfl⟩
    exact ⟨rest, rfl, like_anyText_end rest⟩

end Sql

theorem Text.occursIn_iff (part text : List Char) :
    Text.occursIn part text = true ↔ part <:+: text := by
  induction text with
  | nil => simp [Text.occursIn]
  | cons c text ih =>
      rw [Text.occursIn, Bool.or_eq_true, ih, List.isPrefixOf_iff_prefix, List.infix_cons_iff]

namespace Operator

/-- Whether the operator looks for a text inside a text. -/
def isSearch : Operator → Bool
  | .startsWith | .endsWith | .contains | .doesNotContain => true
  | _ => false

open Sql

/-- The pattern of an operator stands for the texts that satisfy the operator; for those that do not
if it asks for absence. -/
theorem like_patternOf {o : Operator} (ho : o.isSearch = true) (part text : List Char) :
    (like (patternOf o part) text != (o == .doesNotContain)) = o.matchesText text part := by
  have hinfix : like (anyText :: (escape part ++ [anyText])) text = Text.occursIn part text := by
    rw [Bool.eq_iff_iff, Text.occursIn_iff, like_anyText]
    simp only [like_escape_anyText]
    constructor
    · rintro ⟨rest, hs, hp⟩
      exact hp.isInfix.trans hs.isInfix
    · intro h
      obtain ⟨rest, hp, hs⟩ := List.infix_iff_prefix_suffix.mp h
      exact ⟨rest, hs, hp⟩
  cases o with
  | startsWith =>
      show (like (escape part ++ [anyText]) text != false) = part.isPrefixOf text
      rw [Bool.bne_false, Bool.eq_iff_iff, like_escape_anyText, List.isPrefixOf_iff_prefix]
  | endsWith =>
      show (like (anyText :: escape part) text != false) = part.isSuffixOf text
      rw [Bool.bne_false, Bool.eq_iff_iff, like_anyText, List.isSuffixOf_iff_suffix]
      constructor
      · rintro ⟨rest, hs, h⟩
        rwa [(like_escape part rest).mp h] at hs
      · intro h
        exact ⟨part, h, (like_escape part part).mpr rfl⟩
  | contains =>
      show (like (anyText :: (escape part ++ [anyText])) text != false) = Text.occursIn part text
      rw [Bool.bne_false, hinfix]
  | doesNotContain =>
      show (like (anyText :: (escape part ++ [anyText])) text != true) = !Text.occursIn part text
      rw [Bool.bne_true, hinfix]
  | _ => cases ho

end Operator

/-! ## Small letters

Every small form of a capital lies beyond the low line, the last of the special characters. -/

namespace Text

open Sql

theorem shift_beyond_special :
    (capitalRuns.all fun run => decide ((0x5f : Int) < run.first + run.shift)) = true := by
  decide +kernel

theorem special_not_cased : ([escapeChar, anyText, anyChar].all fun c =>
    !isCaseIgnorable c && !isCased c && !(c == 'Σ') && !(c == 'İ') && smallForm c == c) = true := by
  decide +kernel

theorem special_uncased {c : Char} (h : isSpecial c = true) :
    isCaseIgnorable c = false ∧ isCased c = false ∧ c ≠ 'Σ' ∧ c ≠ 'İ' ∧ smallForm c = c := by
  have hmem : c ∈ [escapeChar, anyText, anyChar] := by
    rw [isSpecial_iff] at h
    simpa using h
  have hall := List.all_eq_true.mp special_not_cased c hmem
  simp only [Bool.and_eq_true, Bool.not_eq_true', beq_iff_eq, beq_eq_false_iff_ne] at hall
  exact ⟨hall.1.1.1.1, hall.1.1.1.2, hall.1.1.2, hall.1.2, hall.2⟩

theorem special_code_le {c : Char} (h : isSpecial c = true) : 0 < c.toNat ∧ c.toNat ≤ 0x5f := by
  rw [isSpecial_iff] at h
  rcases h with rfl | rfl | rfl <;> decide

/-- No capital has a special character for its small form. -/
theorem not_isSpecial_smallForm {c : Char} (h : ¬ isSpecial c = true) :
    ¬ isSpecial (smallForm c) = true := by
  rw [smallForm]
  split
  · next run hrun =>
      intro hs
      obtain ⟨hpos, hle⟩ := special_code_le hs
      have hholds := List.find?_some hrun
      simp only [CaseRun.holds, Bool.and_eq_true, decide_eq_true_eq] at hholds
      have hbound := List.all_eq_true.mp shift_beyond_special run (List.mem_of_find?_eq_some hrun)
      rw [decide_eq_true_eq] at hbound
      by_cases hv : ((c.toNat : Int) + run.shift).toNat.isValidChar
      · rw [toNat_ofNat hv] at hle
        omega
      · rw [Char.ofNat, dif_neg hv] at hpos
        exact absurd hpos (by decide)
  · exact h

/-- What cannot be told from the end of a text by casing, and is in small letters. -/
def EndsCasing (suffix : List Char) : Prop :=
  startsCased suffix = false ∧ ∀ afterCased, lowerAfter afterCased suffix = suffix

theorem endsCasing_nil : EndsCasing [] := ⟨rfl, fun _ => rfl⟩

theorem startsCased_of_special {c : Char} (h : isSpecial c = true) (cs : List Char) :
    startsCased (c :: cs) = false := by
  obtain ⟨hi, hc, _⟩ := special_uncased h
  rw [startsCased, List.dropWhile_cons_of_neg (by rw [hi]; decide)]
  exact hc

theorem lowerAfter_of_special {c : Char} (h : isSpecial c = true) (afterCased : Bool)
    (cs : List Char) : lowerAfter afterCased (c :: cs) = c :: lowerAfter false cs := by
  obtain ⟨hi, hc, hsigma, hdot, hs⟩ := special_uncased h
  rw [lowerAfter, if_neg hsigma, if_neg hdot, hs, if_neg (by rw [hi]; decide), hc]
  rfl

theorem isSpecial_escapeChar : isSpecial escapeChar = true := rfl

theorem endsCasing_anyText : EndsCasing [anyText] :=
  ⟨startsCased_of_special rfl [], fun afterCased => lowerAfter_of_special rfl afterCased []⟩

/-- Escaping does not change whether a text starts with a cased character. -/
theorem startsCased_escape (cs : List Char) {suffix : List Char} (h : EndsCasing suffix) :
    startsCased (escape cs ++ suffix) = startsCased cs := by
  induction cs with
  | nil => exact h.1
  | cons c cs ih =>
      by_cases hc : isSpecial c = true
      · rw [escape_cons_of_isSpecial hc, List.cons_append,
          startsCased_of_special isSpecial_escapeChar, startsCased_of_special hc]
      · rw [escape_cons_of_not_isSpecial hc, List.cons_append]
        by_cases hi : isCaseIgnorable c = true
        · rw [startsCased, startsCased, List.dropWhile_cons_of_pos hi,
            List.dropWhile_cons_of_pos hi]
          exact ih
        · rw [startsCased, startsCased, List.dropWhile_cons_of_neg hi,
            List.dropWhile_cons_of_neg hi]

theorem escape_append (cs ds : List Char) : escape (cs ++ ds) = escape cs ++ escape ds :=
  List.flatMap_append

theorem escape_singleton {c : Char} (h : ¬ isSpecial c = true) : escape [c] = [c] := by
  rw [escape_cons_of_not_isSpecial h, escape_nil]

/-- A text that is escaped and then written in small letters is the text in small letters,
escaped. -/
theorem lowerAfter_escape (afterCased : Bool) (cs : List Char) {suffix : List Char}
    (h : EndsCasing suffix) :
    lowerAfter afterCased (escape cs ++ suffix) = escape (lowerAfter afterCased cs) ++ suffix := by
  induction cs generalizing afterCased with
  | nil => exact h.2 afterCased
  | cons c cs ih =>
      by_cases hc : isSpecial c = true
      · rw [escape_cons_of_isSpecial hc, List.cons_append, List.cons_append,
          lowerAfter_of_special isSpecial_escapeChar, lowerAfter_of_special hc,
          lowerAfter_of_special hc, escape_cons_of_isSpecial hc, ih]
        rfl
      · rw [escape_cons_of_not_isSpecial hc, List.cons_append, lowerAfter, lowerAfter, ih,
          startsCased_escape cs h, escape_append, List.append_assoc]
        congr 1
        split
        · split <;> exact (escape_singleton (by decide)).symm
        · split
          · rfl
          · exact (escape_singleton (not_isSpecial_smallForm hc)).symm

/-- The pattern of a text in small letters is the pattern in small letters. -/
theorem lower_patternOf (o : Operator) (part : List Char) :
    lower (patternOf o part) = patternOf o (lower part) := by
  have hend := fun part => lowerAfter_escape false part endsCasing_nil
  simp only [List.append_nil] at hend
  cases o
  case startsWith => exact lowerAfter_escape false part endsCasing_anyText
  case endsWith => exact (lowerAfter_of_special rfl false _).trans (congrArg _ (hend part))
  all_goals
    exact (lowerAfter_of_special rfl false _).trans
      (congrArg _ (lowerAfter_escape false part endsCasing_anyText))

end Text

end Rowgate
