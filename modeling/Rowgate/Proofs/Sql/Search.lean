import Rowgate.Proofs.Sql.Truth
import Rowgate.Sql.FilterClause

/-!
# What a search finds

An operator that looks for a text becomes a pattern in a clause, and a question about two texts in a
file. Both ask for the same thing: a part at the start of a text, at its end, anywhere in it or
nowhere in it (`Operator.Finds`).

`StandsFor` says rule by rule which texts a pattern stands for, and `like_iff_standsFor` that
matching a pattern from the left, with every way to go on after a percent sign, decides it. The
pattern itself is made by putting a stroke before each special character, one character after the
other; the stroke comes first, so that no stroke is taken for a character of the text
(`escape_eq_withStrokes`).
-/

namespace Rowgate

namespace Sql

/-! ## Patterns -/

/-- Which texts a pattern stands for: a percent sign for any run of characters, a low line for any
character, a stroke for the character after it, and any other character for itself. -/
inductive StandsFor : List Char → List Char → Prop
  | nil : StandsFor [] []
  | anyText (run : List Char) {p text : List Char} (h : StandsFor p text) :
      StandsFor (anyText :: p) (run ++ text)
  | anyChar (c : Char) {p text : List Char} (h : StandsFor p text) :
      StandsFor (anyChar :: p) (c :: text)
  | escaped (c : Char) {p text : List Char} (h : StandsFor p text) :
      StandsFor (escapeChar :: c :: p) (c :: text)
  | plain {c : Char} (hc : ¬ isSpecial c = true) {p text : List Char} (h : StandsFor p text) :
      StandsFor (c :: p) (c :: text)

theorem like_anyChar (p text : List Char) :
    like (anyChar :: p) text = true ↔ ∃ c rest, text = c :: rest ∧ like p rest = true := by
  rw [like.eq_def]
  simp only [show anyChar ≠ escapeChar by decide, show anyChar ≠ anyText by decide, if_false]
  cases text with
  | nil => simp
  | cons c text => simp

theorem like_of_standsFor {p text : List Char} (h : StandsFor p text) : like p text = true := by
  induction h with
  | nil => rfl
  | anyText run _ ih => exact (like_anyText _ _).mpr ⟨_, List.suffix_append run _, ih⟩
  | anyChar c _ ih => exact (like_anyChar _ _).mpr ⟨c, _, rfl, ih⟩
  | escaped c _ ih => exact (like_escaped c _ _).mpr ⟨_, rfl, ih⟩
  | plain hc _ ih => exact (like_plain hc _ _).mpr ⟨_, rfl, ih⟩

theorem like_stroke_end (text : List Char) : like [escapeChar] text = false := by
  rw [like.eq_def]
  simp only [if_true]

theorem standsFor_of_like {p text : List Char} (h : like p text = true) : StandsFor p text := by
  -- a stroke takes two characters of the pattern at once, so the induction is on the length
  induction hn : p.length using Nat.strong_induction_on generalizing p text with
  | _ n ih =>
      cases p with
      | nil =>
          rw [like, List.isEmpty_iff] at h
          exact h ▸ .nil
      | cons c p =>
          rw [List.length_cons] at hn
          by_cases hc : isSpecial c = true
          · rcases isSpecial_iff.mp hc with rfl | rfl | rfl
            · cases p with
              | nil =>
                  rw [like_stroke_end] at h
                  cases h
              | cons d p =>
                  obtain ⟨rest, rfl, hrest⟩ := (like_escaped d p text).mp h
                  rw [List.length_cons] at hn
                  exact .escaped d (ih p.length (by omega) hrest rfl)
            · obtain ⟨rest, ⟨run, rfl⟩, hrest⟩ := (like_anyText p text).mp h
              exact .anyText run (ih p.length (by omega) hrest rfl)
            · obtain ⟨d, rest, rfl, hrest⟩ := (like_anyChar p text).mp h
              exact .anyChar d (ih p.length (by omega) hrest rfl)
          · obtain ⟨rest, rfl, hrest⟩ := (like_plain hc p text).mp h
            exact .plain hc (ih p.length (by omega) hrest rfl)

theorem like_iff_standsFor (p text : List Char) : like p text = true ↔ StandsFor p text :=
  ⟨standsFor_of_like, like_of_standsFor⟩

/-! ## Strokes -/

/-- A text with a stroke before a character wherever it stands. -/
def withStrokes (c : Char) (cs : List Char) : List Char :=
  Text.substitute (fun d => if d = c then [escapeChar, d] else [d]) cs

/-- The pattern of a text is made in three steps, one for each special character. -/
theorem escape_eq_withStrokes (cs : List Char) :
    escape cs = withStrokes anyChar (withStrokes anyText (withStrokes escapeChar cs)) := by
  induction cs with
  | nil => rfl
  | cons c cs ih =>
      have hsteps : ∀ ds es : List Char,
          withStrokes anyChar (withStrokes anyText (ds ++ es)) =
            withStrokes anyChar (withStrokes anyText ds) ++
              withStrokes anyChar (withStrokes anyText es) := fun ds es => by
        simp only [withStrokes, Text.substitute, List.flatMap_append]
      have hfirst : withStrokes escapeChar (c :: cs) =
          (if c = escapeChar then [escapeChar, c] else [c]) ++ withStrokes escapeChar cs := rfl
      rw [hfirst, hsteps, ← ih]
      by_cases hc : isSpecial c = true
      · rw [escape_cons_of_isSpecial hc]
        rcases isSpecial_iff.mp hc with rfl | rfl | rfl <;> rfl
      · rw [escape_cons_of_not_isSpecial hc]
        rw [isSpecial_iff, not_or, not_or] at hc
        simp only [withStrokes, Text.substitute, if_neg hc.1, if_neg hc.2.1, if_neg hc.2.2,
          List.flatMap_cons, List.flatMap_nil, List.append_nil, List.singleton_append]

/-- What stands before the text in the pattern of an operator. -/
def patternStart : Operator → List Char
  | .startsWith => []
  | _ => [anyText]

/-- What stands after the text in the pattern of an operator. -/
def patternEnd : Operator → List Char
  | .endsWith => []
  | _ => [anyText]

theorem patternOf_eq {o : Operator} (ho : o.isSearch = true) (cs : List Char) :
    patternOf o cs = patternStart o ++
      withStrokes anyChar (withStrokes anyText (withStrokes escapeChar cs)) ++ patternEnd o := by
  rw [← escape_eq_withStrokes]
  cases o with
  | startsWith => rfl
  | endsWith => exact (List.append_nil _).symm
  | contains => rfl
  | doesNotContain => rfl
  | _ => cases ho

end Sql

/-! ## Searches -/

open Sql

/-- What an operator that looks for a text says of a text and a part. -/
def Operator.Finds (o : Operator) (text part : List Char) : Prop :=
  match o with
  | .startsWith => part <+: text
  | .endsWith => part <:+ text
  | .contains => part <:+: text
  | .doesNotContain => ¬ part <:+: text
  | _ => False

theorem Operator.matchesText_iff (o : Operator) (text part : List Char) :
    o.matchesText text part = true ↔ o.Finds text part := by
  cases o with
  | startsWith => exact List.isPrefixOf_iff_prefix
  | endsWith => exact List.isSuffixOf_iff_suffix
  | contains => exact Text.occursIn_iff part text
  | doesNotContain =>
      rw [matchesText, Finds, Bool.not_eq_true', ← Bool.not_eq_true, Text.occursIn_iff]
  | _ => exact ⟨fun h => absurd h Bool.false_ne_true, False.elim⟩

/-- A text as an operator sees it: in small letters if `fold`. -/
def Text.seen (fold : Bool) (s : String) : List Char :=
  if fold then Text.lower s.toList else s.toList

section Search

variable {o : Operator} {fold : Bool} {r : Record} {text part : String} {c : Column}

theorem Operator.clause_of_isSearch (ho : o.isSearch = true) (c : Column) (fold : Bool)
    (part : String) : o.clause c fold (.str part) =
      .ok (.like c (o == .doesNotContain) fold (String.ofList (patternOf o part.toList))) := by
  cases o <;> first | rfl | cases ho

theorem Operator.holds_of_isSearch (ho : o.isSearch = true) (fold : Bool) (text part : String) :
    o.holds fold (.str text) (.str part) =
      .ok (o.matchesText (Text.seen fold text) (Text.seen fold part)) := by
  cases o <;> first | rfl | cases ho

/-- The pattern of a part, as it is seen, is the pattern of the part as it is seen. -/
theorem Text.seen_patternOf (o : Operator) (fold : Bool) (part : String) :
    Text.seen fold (String.ofList (patternOf o part.toList)) =
      patternOf o (Text.seen fold part) := by
  cases fold with
  | true =>
      rw [Text.seen, Text.seen, if_pos rfl, if_pos rfl, String.toList_ofList, Text.lower_patternOf]
  | false => rw [Text.seen, Text.seen, if_neg (by decide), if_neg (by decide), String.toList_ofList]

theorem Sql.Clause.truthOn_like (negated : Bool) (pattern : String)
    (hr : Record.field r c.name = .str text) :
    (Clause.like c negated fold pattern).truthOn r =
      .ofBool (Sql.like (Text.seen fold pattern) (Text.seen fold text) != negated) := by
  rw [Clause.truthOn, hr]
  cases fold with
  | true =>
      simp only [Value.folded, searchTruth, Text.lowercase, Text.seen, if_true,
        String.toList_ofList]
  | false => rfl

/-- The clause of a search is true of the texts that satisfy its operator. -/
theorem Sql.Clause.truthOn_search (ho : o.isSearch = true) (fold : Bool) (part : String)
    (hr : Record.field r c.name = .str text) :
    (Clause.like c (o == .doesNotContain) fold
      (String.ofList (patternOf o part.toList))).truthOn r =
        .ofBool (o.matchesText (Text.seen fold text) (Text.seen fold part)) := by
  rw [truthOn_like _ _ hr, Text.seen_patternOf, Operator.like_patternOf ho]

/-- A search finds the same texts in a table and in a file, and it finds what its operator says. The
clause holds a pattern, made of the part by three replacements, and it is true of a text if the
pattern stands for the text, or if it does not where the operator asks for absence. Small letters
are taken of the pattern as a whole, of the part alone and of the text, each on its own. -/
theorem search_finds (ho : o.isSearch = true) (c : Column) (fold : Bool)
    (hr : Record.field r c.name = .str text) (part : String) :
    ∃ pattern found,
      o.clause c fold (.str part) = .ok (.like c (o == .doesNotContain) fold pattern) ∧
      pattern.toList = patternStart o ++
        withStrokes anyChar (withStrokes anyText (withStrokes escapeChar part.toList)) ++
          patternEnd o ∧
      (Clause.like c (o == .doesNotContain) fold pattern).truthOn r = .ofBool found ∧
      (StandsFor (Text.seen fold pattern) (Text.seen fold text) ↔
        found = (o != .doesNotContain)) ∧
      (found = true ↔ o.Finds (Text.seen fold text) (Text.seen fold part)) ∧
      o.holds fold (.str text) (.str part) = .ok found := by
  refine ⟨_, _, Operator.clause_of_isSearch ho c fold part, ?_,
    Clause.truthOn_search ho fold part hr, ?_, o.matchesText_iff _ _,
    Operator.holds_of_isSearch ho fold text part⟩
  · rw [String.toList_ofList, patternOf_eq ho]
  · rw [← like_iff_standsFor, ← Operator.like_patternOf ho, Text.seen_patternOf]
    cases like (patternOf o (Text.seen fold part)) (Text.seen fold text) <;>
      cases h : o == Operator.doesNotContain <;> simp [bne, h]

/-- A word that ends in a sigma: it is a final one at the end of the text, at the end of the part
and before the percent sign of the pattern alike. -/
theorem search_finds_street :
    Operator.isSearch .contains = true ∧
      Record.field [("Street", .str "12_ΟΔΟΣ")] "Street" = .str "12_ΟΔΟΣ" ∧
      ∃ pattern, Operator.clause .contains ⟨"Street", .text none, false⟩ true (.str "_ΟΔΟΣ") =
          .ok (.like ⟨"Street", .text none, false⟩ false true pattern) ∧
        pattern = "%/_ΟΔΟΣ%" ∧
        (Clause.like ⟨"Street", .text none, false⟩ false true pattern).truthOn
          [("Street", .str "12_ΟΔΟΣ")] = .yes ∧
        Operator.holds .contains true (.str "12_ΟΔΟΣ") (.str "_ΟΔΟΣ") = .ok true := by
  have hr : Record.field [("Street", .str "12_ΟΔΟΣ")] "Street" = .str "12_ΟΔΟΣ" := rfl
  obtain ⟨pattern, found, hclause, hpattern, htruth, -, hfound, hholds⟩ :=
    search_finds (o := .contains) rfl ⟨"Street", .text none, false⟩ true hr "_ΟΔΟΣ"
  have hyes : found = true := hfound.mpr ⟨['1', '2'], [], by decide +kernel⟩
  subst hyes
  exact ⟨rfl, hr, pattern, hclause, String.toList_inj.mp (hpattern.trans (by decide)), htruth,
    hholds⟩

end Search

end Rowgate
