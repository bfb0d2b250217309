import Rowgate.Proofs.Json.Numbers
import Rowgate.Proofs.Json.Strings

/-!
# Where values begin and end

A value begins with a character that is no blank and closes nothing, so the blanks before it are
skipped up to it and no bracket is taken for its own end. It ends where a blank, a comma or a closing
bracket comes, or nothing: this is all that a number needs to know of what follows it
(`Delimited.endsBefore`).
-/

namespace Rowgate.Json

/-! ## Blanks, and how a value begins and ends -/

theorem skipSpace_blank {blank : List Char} (h : Blank blank) (cs : List Char) :
    skipSpace (blank ++ cs) = skipSpace cs := List.dropWhile_append_of_pos h

theorem exists_blank (cs : List Char) : ∃ blank, cs = blank ++ skipSpace cs ∧ Blank blank :=
  ⟨cs.takeWhile isSpace, List.takeWhile_append_dropWhile.symm, fun _ => List.mem_takeWhile_imp⟩

/-- Whether a character can begin the text of a value. -/
def opens (c : Char) : Bool :=
  c.isDigit || ['"', '-', '[', '\x7b', 'n', 't', 'f', 'N', 'I'].contains c

theorem ne_of_opens {c d : Char} (hc : opens c = true) (hd : opens d = false) : c ≠ d := by
  rintro rfl
  rw [hc] at hd
  cases hd

theorem not_isSpace_of_opens {c : Char} (h : opens c = true) : isSpace c = false := by
  rw [← Bool.not_eq_true]
  intro hspace
  simp only [isSpace, Bool.or_eq_true, beq_iff_eq] at hspace
  rcases hspace with ((rfl | rfl) | rfl) | rfl <;> exact absurd h (by decide)

theorem skipSpace_of_opens {c : Char} (h : opens c = true) (cs : List Char) :
    skipSpace (c :: cs) = c :: cs := by
  have hspace : ¬ isSpace c = true := by
    rw [not_isSpace_of_opens h]
    exact Bool.false_ne_true
  rw [skipSpace, List.dropWhile_cons_of_neg hspace]

theorem opens_of_isDigit {d : Char} (h : d.isDigit = true) : opens d = true := by
  rw [opens, h, Bool.true_or]

/-- Whether a text begins as a value does. -/
def Opening (text : List Char) : Prop := ∃ c cs, text = c :: cs ∧ opens c = true

namespace Opening

variable {text : List Char}

theorem append (h : Opening text) (rest : List Char) : Opening (text ++ rest) := by
  obtain ⟨c, cs, rfl, hc⟩ := h
  exact ⟨c, cs ++ rest, rfl, hc⟩

theorem skipSpace_eq (h : Opening text) : skipSpace text = text := by
  obtain ⟨c, cs, rfl, hc⟩ := h
  exact skipSpace_of_opens hc cs

theorem length_pos (h : Opening text) : 0 < text.length := by
  obtain ⟨c, cs, rfl, -⟩ := h
  exact Nat.succ_pos _

/-- What begins as a value does is no end of a list or a dictionary. -/
theorem ne_cons (h : Opening text) {d : Char} (hd : opens d = false) (cs : List Char) :
    text ≠ d :: cs := by
  obtain ⟨c, _, rfl, hc⟩ := h
  exact fun heq => ne_of_opens hc hd (List.cons.inj heq).1

end Opening

theorem Numeral.opening_unsigned (n : Numeral) :
    ∃ d ds, n.unsigned = d :: ds ∧ d.isDigit = true := by
  cases hwhole : n.whole with
  | nil => exact absurd hwhole n.whole_ne_nil
  | cons d ds =>
      exact ⟨d, ds ++ (pointed n.fraction ++ n.powerText), by rw [unsigned, hwhole]; rfl,
        n.areWhole d (by rw [hwhole]; exact List.mem_cons_self)⟩

theorem Numeral.opening (n : Numeral) : Opening n.text := by
  obtain ⟨d, ds, heq, hd⟩ := n.opening_unsigned
  rw [text, heq]
  cases n.negative with
  | false => exact ⟨d, ds, rfl, opens_of_isDigit hd⟩
  | true => exact ⟨'-', d :: ds, rfl, rfl⟩

theorem Spells.opening {P : Numeral → Prop} {depth : Nat} {text : List Char} {v : Value}
    (h : Spells P depth text v) : Opening text := by
  cases h with
  | number n => exact n.opening
  | _ => exact ⟨_, _, rfl, rfl⟩

theorem Stuck.opening {depth : Nat} {cs : List Char} (h : Stuck depth cs) : Opening cs := by
  cases h with
  | nesting hc =>
      rcases hc with rfl | rfl
      · exact ⟨_, _, rfl, rfl⟩
      · exact ⟨_, _, rfl, rfl⟩
  | number n => exact n.opening.append _
  | item => exact ⟨_, _, rfl, rfl⟩
  | member => exact ⟨_, _, rfl, rfl⟩

/-- Whether a blank, a comma or a closing bracket comes first, or nothing. -/
def Delimited (cs : List Char) : Prop :=
  ∀ c ∈ cs.head?, isSpace c = true ∨ c = ',' ∨ c = ']' ∨ c = '\x7d'

namespace Delimited

variable {rest : List Char}

theorem comma (cs : List Char) : Delimited (',' :: cs) := by
  rintro _ ⟨⟩
  exact Or.inr (Or.inl rfl)

theorem bracket (cs : List Char) : Delimited (']' :: cs) := by
  rintro _ ⟨⟩
  exact Or.inr (Or.inr (Or.inl rfl))

theorem brace (cs : List Char) : Delimited ('\x7d' :: cs) := by
  rintro _ ⟨⟩
  exact Or.inr (Or.inr (Or.inr rfl))

theorem blank_append {blank : List Char} (hblank : Blank blank) (h : Delimited rest) :
    Delimited (blank ++ rest) := by
  cases blank with
  | nil => exact h
  | cons c cs =>
      rintro _ ⟨⟩
      exact Or.inl (hblank c List.mem_cons_self)

theorem of_blank {blank : List Char} (h : Blank blank) : Delimited blank := by
  have hend : Delimited (blank ++ []) := blank_append h nofun
  rwa [List.append_nil] at hend

/-- No character of a number follows. -/
theorem ne_head (h : Delimited rest) {c : Char} (hspace : isSpace c = false)
    (hc : c ≠ ',' ∧ c ≠ ']' ∧ c ≠ '\x7d') (cs : List Char) : rest ≠ c :: cs := by
  rintro rfl
  rcases h c rfl with hs | hcomma | hbracket | hbrace
  · rw [hspace] at hs
    cases hs
  · exact hc.1 hcomma
  · exact hc.2.1 hbracket
  · exact hc.2.2 hbrace

theorem endsBefore (h : Delimited rest) (n : Numeral) : n.EndsBefore rest where
  digits _ := by
    intro c hc
    cases rest with
    | nil => cases hc
    | cons d cs =>
        cases hc
        rw [← Bool.not_eq_true]
        intro hdigit
        have hopens := opens_of_isDigit hdigit
        exact h.ne_head (not_isSpace_of_opens hopens) ⟨ne_of_opens hopens (by decide),
          ne_of_opens hopens (by decide), ne_of_opens hopens (by decide)⟩ cs rfl
  fraction _ := by
    rintro ⟨d, cs, heq, -⟩
    exact h.ne_head (by decide) (by decide) _ heq
  power _ := by
    rintro ⟨p, cs, heq⟩
    rw [Power.text, List.cons_append] at heq
    rcases p.isMark with hmark | hmark
    · rw [hmark] at heq
      exact h.ne_head (by decide) (by decide) _ heq
    · rw [hmark] at heq
      exact h.ne_head (by decide) (by decide) _ heq

end Delimited

/-! ## What one call does -/

theorem readValue_atom {c : Char} (hl : c ≠ '[') (hd : c ≠ '\x7b') (depth fuel : Nat)
    (cs : List Char) : readValue depth (fuel + 1) (c :: cs) = readAtom (c :: cs) := by
  rw [readValue]
  · exact fun _ h => absurd (List.cons.inj h).1 hl
  · exact fun _ h => absurd (List.cons.inj h).1 hd
  · exact fun _ _ h => absurd (List.cons.inj h).1 hl
  · exact fun _ _ h => absurd (List.cons.inj h).1 hd

/-- A number is read as one without its sign is. -/
theorem readAtom_numeral (n : Numeral) (rest : List Char) :
    ∃ left, readAtom (n.text ++ rest) = readUnsigned left n.negative (n.unsigned ++ rest) := by
  obtain ⟨d, ds, heq, hd⟩ := n.opening_unsigned
  rw [Numeral.text, heq]
  cases n.negative with
  | false => exact ⟨_, readAtom_of_isDigit hd _⟩
  | true => exact ⟨_, readAtom_minus hd _⟩

theorem Numeral.atom (n : Numeral) (rest : List Char) (depth fuel : Nat) :
    readValue depth (fuel + 1) (n.text ++ rest) = readAtom (n.text ++ rest) := by
  obtain ⟨d, ds, heq, hd⟩ := n.opening_unsigned
  rw [text, heq]
  cases n.negative with
  | false =>
      refine readValue_atom ?_ ?_ depth fuel _
      · rintro rfl
        exact absurd hd (by decide)
      · rintro rfl
        exact absurd hd (by decide)
  | true => exact readValue_atom (by decide) (by decide) depth fuel _

theorem Item.skipSpace_written (i : Item) (h : Opening i.text) (rest : List Char) :
    skipSpace (i.written ++ rest) = i.text ++ (i.behind ++ rest) := by
  rw [written, List.append_assoc, List.append_assoc, skipSpace_blank i.blankBefore,
    (h.append _).skipSpace_eq]

theorem Label.skipSpace_written (l : Label) (cs : List Char) :
    skipSpace (l.written ++ cs) = '"' :: (l.quoted ++ '"' :: (l.gap ++ ':' :: cs)) := by
  have hwritten : l.written ++ cs =
      l.before ++ '"' :: (l.quoted ++ '"' :: (l.gap ++ ':' :: cs)) := by
    simp [written]
  rw [hwritten, skipSpace_blank l.blankBefore]
  rfl

/-- What comes after an opening bracket is read as items, if it does not close the list at once. -/
theorem readValue_items {cs : List Char} (h : Opening (skipSpace cs)) (depth fuel : Nat) :
    readValue (depth + 1) (fuel + 1) ('[' :: cs) =
      (readItems depth fuel (skipSpace cs)).map fun (items, rest) => (.list items, rest) := by
  rw [readValue]
  split
  · next heq => exact absurd heq (h.ne_cons (by decide) _)
  · rfl

theorem readValue_entries {cs : List Char} (h : Opening (skipSpace cs)) (depth fuel : Nat) :
    readValue (depth + 1) (fuel + 1) ('\x7b' :: cs) =
      (readEntries depth fuel (skipSpace cs)).map fun (es, rest) =>
        (.dict (Record.ofEntries es), rest) := by
  rw [readValue]
  split
  · next heq => exact absurd heq (h.ne_cons (by decide) _)
  · rfl

/-- After a label a value is read, and what comes after the value decides. -/
theorem readEntries_label {depth fuel : Nat} (l : Label) (cs : List Char) :
    readEntries depth (fuel + 1) (skipSpace (l.written ++ cs)) =
      (readValue depth fuel (skipSpace cs)).bind fun (v, rest) =>
        match skipSpace rest with
        | '\x7d' :: rest => .ok ([(String.ofList l.name, v)], rest)
        | ',' :: rest =>
          (readEntries depth fuel (skipSpace rest)).bind fun (es, rest) =>
            .ok ((String.ofList l.name, v) :: es, rest)
        | rest => .error (.malformed .comma rest.length) := by
  rw [l.skipSpace_written, readEntries, readString_quoted l.isName]
  dsimp only [bind, Except.bind]
  rw [skipSpace_blank l.blankGap]
  rfl

end Rowgate.Json
