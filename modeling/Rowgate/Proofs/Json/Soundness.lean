import Rowgate.Proofs.Json.Boundary

/-!
# What is read is in the grammar

Whatever the reader reads stands at the start of the text, in the grammar and within the limits; and
where it stops, the text is malformed or goes beyond a limit there. This is one induction on the
fuel for values, items and entries (`valueRead`), from what one call does with what it calls.
-/

namespace Rowgate.Json

/-! ## Atoms -/

/-- What is read as a number without its sign begins with one. -/
theorem readUnsigned_cases (left : Nat) (negative : Bool) (cs : List Char) :
    readUnsigned left negative cs = .error (.malformed .value left) ∨
      ∃ (n : Numeral) (rest : List Char), n.negative = negative ∧ cs = n.unsigned ++ rest ∧
        n.EndsBefore rest := by
  cases cs with
  | nil => exact Or.inl rfl
  | cons d cs =>
      by_cases hd : d.isDigit = true
      · exact Or.inr (exists_numeral negative hd cs)
      · have hnone : wholeDigits? (d :: cs) = none := by
          rw [wholeDigits?, if_neg hd]
          rintro rfl
          exact hd (by decide)
        refine Or.inl ?_
        rw [readUnsigned, hnone]

/-- What the outcome of reading a value says of the text: the value stands in it, or it is malformed,
or it goes beyond a limit. -/
def ValueRead (depth : Nat) (cs : List Char) : Except Stop (Value × List Char) → Prop
  | .ok (v, rest) => ∃ text, cs = text ++ rest ∧ Spells Numeral.Readable depth text v
  | .error stop => stop.isMalformed = false → Stuck depth cs

theorem valueRead_malformed {depth : Nat} {cs : List Char} {cause : Malformed} {left : Nat} :
    ValueRead depth cs (.error (.malformed cause left)) := fun h => nomatch h

theorem valueRead_unsigned (depth left : Nat) (negative : Bool) (cs : List Char) :
    ValueRead depth (Decimal.sign negative ++ cs) (readUnsigned left negative cs) := by
  rcases readUnsigned_cases left negative cs with h | ⟨n, rest, rfl, rfl, hend⟩
  · rw [h]
    exact valueRead_malformed
  · rw [← List.append_assoc, ← Numeral.text]
    by_cases hn : n.Readable
    · rw [readUnsigned_of_readable hend hn]
      exact ⟨n.text, rfl, .number n hn⟩
    · obtain ⟨stop, hstop, -⟩ := readUnsigned_of_not_readable hend hn left
      rw [hstop]
      exact fun _ => .number n hn hend

theorem valueRead_string {depth start : Nat} (cs : List Char) :
    ValueRead depth ('"' :: cs)
      ((readString start cs).map fun (s, rest) => (.str (String.ofList s), rest)) := by
  cases h : readString start cs with
  | error stop =>
      intro hstop
      rw [isMalformed_of_readString h] at hstop
      cases hstop
  | ok read =>
      obtain ⟨s, rest⟩ := read
      obtain ⟨quoted, rfl, hquoted⟩ := quoted_of_readString h
      exact ⟨'"' :: (quoted ++ ['"']), by simp, .string hquoted⟩

theorem valueRead_atom (depth : Nat) (cs : List Char) : ValueRead depth cs (readAtom cs) := by
  rw [readAtom.eq_def]
  dsimp only
  split
  · exact valueRead_string _
  · exact ⟨_, rfl, .null⟩
  · exact ⟨_, rfl, .true⟩
  · exact ⟨_, rfl, .false⟩
  · exact ⟨_, rfl, .nan⟩
  · exact ⟨_, rfl, .infinity⟩
  · exact ⟨_, rfl, .minusInfinity⟩
  · exact valueRead_unsigned depth _ true _
  · exact valueRead_unsigned depth _ false _

/-! ## Lists and dictionaries -/

/-- What the outcome of reading items up to the end of a list says of the text. -/
def ItemsRead (depth : Nat) (cs : List Char) : Except Stop (List Value × List Char) → Prop
  | .ok (vs, rest) => ∃ items : List Item, items ≠ [] ∧
      cs = joined (items.map Item.written) ++ ']' :: rest ∧
      (∀ i ∈ items, Spells Numeral.Readable depth i.text i.value) ∧ vs = items.map Item.value
  | .error stop => stop.isMalformed = false → ∃ (items : List Item) (blank rest : List Char),
      cs = listed (items.map Item.written) ++ (blank ++ rest) ∧
      (∀ i ∈ items, Spells Numeral.Readable depth i.text i.value) ∧ Blank blank ∧ Stuck depth rest

/-- What the outcome of reading entries up to the end of a dictionary says of the text. -/
def EntriesRead (depth : Nat) (cs : List Char) :
    Except Stop (List (String × Value) × List Char) → Prop
  | .ok (es, rest) => ∃ members : List Member, members ≠ [] ∧
      cs = joined (members.map Member.written) ++ '\x7d' :: rest ∧
      (∀ m ∈ members, Spells Numeral.Readable depth m.item.text m.item.value) ∧
      es = members.map Member.entry
  | .error stop => stop.isMalformed = false →
      ∃ (members : List Member) (l : Label) (blank rest : List Char),
        cs = listed (members.map Member.written) ++ (l.written ++ (blank ++ rest)) ∧
        (∀ m ∈ members, Spells Numeral.Readable depth m.item.text m.item.value) ∧
        Blank blank ∧ Stuck depth rest

section Steps

variable {depth fuel : Nat}

/-- A value and the blanks around it are an item. -/
theorem exists_item {cs text rest : List Char} (h : skipSpace cs = text ++ rest) (v : Value) :
    ∃ i : Item, i.text = text ∧ i.value = v ∧ cs = i.written ++ skipSpace rest := by
  obtain ⟨before, hcs, hbefore⟩ := exists_blank cs
  obtain ⟨behind, hrest, hbehind⟩ := exists_blank rest
  refine ⟨⟨before, text, behind, v, hbefore, hbehind⟩, rfl, rfl, ?_⟩
  rw [Item.written, List.append_assoc, List.append_assoc, ← hrest, ← h]
  exact hcs

/-- An item and the items after it. -/
theorem itemsRead_cons {i : Item} (hi : Spells Numeral.Readable depth i.text i.value)
    {tail : List Char} {r : Except Stop (List Value × List Char)} (h : ItemsRead depth tail r) :
    ItemsRead depth (i.written ++ ',' :: tail)
      (r.bind fun (vs, rest) => .ok (i.value :: vs, rest)) := by
  cases r with
  | error stop =>
      intro hstop
      obtain ⟨items, blank, rest, rfl, hall, hblank, hstuck⟩ := h hstop
      exact ⟨i :: items, blank, rest, by rw [List.map_cons, listed_cons],
        List.forall_mem_cons.mpr ⟨hi, hall⟩, hblank, hstuck⟩
  | ok read =>
      obtain ⟨items, hne, rfl, hall, hvs⟩ := h
      refine ⟨i :: items, List.cons_ne_nil i items, ?_, List.forall_mem_cons.mpr ⟨hi, hall⟩,
        by rw [hvs]; rfl⟩
      rw [List.map_cons, joined_cons (by simpa using hne), List.append_assoc]
      rfl

/-- The items of a list, if a value and the items after it are read as they should be. -/
theorem itemsRead_step (hvalue : ∀ cs, ValueRead depth cs (readValue depth fuel cs))
    (hitems : ∀ cs, ItemsRead depth cs (readItems depth fuel (skipSpace cs))) (cs : List Char) :
    ItemsRead depth cs (readItems depth (fuel + 1) (skipSpace cs)) := by
  have hfirst := hvalue (skipSpace cs)
  rw [readItems]
  cases hread : readValue depth fuel (skipSpace cs) with
  | error stop =>
      rw [hread] at hfirst
      obtain ⟨blank, hcs, hblank⟩ := exists_blank cs
      exact fun hstop => ⟨[], blank, skipSpace cs, hcs, List.forall_mem_nil _, hblank, hfirst hstop⟩
  | ok read =>
      obtain ⟨v, rest⟩ := read
      rw [hread] at hfirst
      obtain ⟨text, htext, hspells⟩ := hfirst
      obtain ⟨i, rfl, rfl, rfl⟩ := exists_item htext v
      dsimp only [bind, Except.bind]
      split
      · next tail heq =>
          rw [heq]
          exact ⟨[i], List.cons_ne_nil i [], rfl, List.forall_mem_singleton.mpr hspells, rfl⟩
      · next tail heq =>
          rw [heq]
          exact itemsRead_cons hspells (hitems tail)
      · intro hstop
        cases hstop

/-- A member and the members after it. -/
theorem entriesRead_cons {m : Member} (hm : Spells Numeral.Readable depth m.item.text m.item.value)
    {tail : List Char} {r : Except Stop (List (String × Value) × List Char)}
    (h : EntriesRead depth tail r) :
    EntriesRead depth (m.written ++ ',' :: tail)
      (r.bind fun (es, rest) => .ok (m.entry :: es, rest)) := by
  cases r with
  | error stop =>
      intro hstop
      obtain ⟨members, l, blank, rest, rfl, hall, hblank, hstuck⟩ := h hstop
      exact ⟨m :: members, l, blank, rest, by rw [List.map_cons, listed_cons],
        List.forall_mem_cons.mpr ⟨hm, hall⟩, hblank, hstuck⟩
  | ok read =>
      obtain ⟨members, hne, rfl, hall, hes⟩ := h
      refine ⟨m :: members, List.cons_ne_nil m members, ?_, List.forall_mem_cons.mpr ⟨hm, hall⟩,
        by rw [hes]; rfl⟩
      rw [List.map_cons, joined_cons (by simpa using hne), List.append_assoc]
      rfl

/-- Where entries are read, a label comes first or the text is malformed. -/
theorem readEntries_cases (cs : List Char) :
    (∃ (l : Label) (tail : List Char), cs = l.written ++ tail) ∨
      ∃ stop, readEntries depth (fuel + 1) (skipSpace cs) = .error stop ∧
        stop.isMalformed = true := by
  obtain ⟨blank, hcs, hblank⟩ := exists_blank cs
  rw [readEntries.eq_def]
  dsimp only
  split
  · next name hname =>
      cases hread : readString (skipSpace cs).length name with
      | error stop => exact Or.inr ⟨stop, rfl, isMalformed_of_readString hread⟩
      | ok read =>
          obtain ⟨k, rest⟩ := read
          obtain ⟨quoted, rfl, hquoted⟩ := quoted_of_readString hread
          obtain ⟨gap, hrest, hgap⟩ := exists_blank rest
          by_cases hcolon : ∃ tail, skipSpace rest = ':' :: tail
          · obtain ⟨tail, heq⟩ := hcolon
            refine Or.inl ⟨⟨blank, quoted, gap, k, hblank, hquoted, hgap⟩, tail, ?_⟩
            rw [hcs, hname, hrest, heq]
            simp [Label.written]
          · refine Or.inr ⟨.malformed .colon (skipSpace rest).length, ?_, rfl⟩
            dsimp only [bind, Except.bind]
            split
            · next tail heq => exact absurd ⟨tail, heq⟩ hcolon
            · rfl
  · exact Or.inr ⟨_, rfl, rfl⟩

/-- The entries of a dictionary, if a value and the entries after it are read as they should be. -/
theorem entriesRead_step (hvalue : ∀ cs, ValueRead depth cs (readValue depth fuel cs))
    (hentries : ∀ cs, EntriesRead depth cs (readEntries depth fuel (skipSpace cs)))
    (cs : List Char) : EntriesRead depth cs (readEntries depth (fuel + 1) (skipSpace cs)) := by
  rcases readEntries_cases cs with ⟨l, tail, rfl⟩ | ⟨stop, heq, hmalformed⟩
  · have hfirst := hvalue (skipSpace tail)
    rw [readEntries_label]
    cases hread : readValue depth fuel (skipSpace tail) with
    | error stop =>
        rw [hread] at hfirst
        obtain ⟨blank, htail, hblank⟩ := exists_blank tail
        exact fun hstop => ⟨[], l, blank, skipSpace tail, by rw [← htail]; rfl,
          List.forall_mem_nil _, hblank, hfirst hstop⟩
    | ok read =>
        obtain ⟨v, rest⟩ := read
        rw [hread] at hfirst
        obtain ⟨text, htext, hspells⟩ := hfirst
        obtain ⟨i, rfl, rfl, rfl⟩ := exists_item htext v
        rw [← List.append_assoc]
        dsimp only [Except.bind]
        split
        · next tail heq =>
            rw [heq]
            exact ⟨[⟨l, i⟩], List.cons_ne_nil _ [], rfl, List.forall_mem_singleton.mpr hspells, rfl⟩
        · next tail heq =>
            rw [heq]
            exact entriesRead_cons (m := ⟨l, i⟩) hspells (hentries tail)
        · intro hstop
          cases hstop
  · rw [heq]
    intro hstop
    rw [hmalformed] at hstop
    cases hstop

/-- Items up to the end of their list make a list, and where they go beyond a limit it does. -/
theorem ItemsRead.list {cs : List Char} {r : Except Stop (List Value × List Char)}
    (h : ItemsRead depth cs r) :
    ValueRead (depth + 1) ('[' :: cs) (r.map fun (items, rest) => (.list items, rest)) := by
  cases r with
  | error stop =>
      intro hstop
      obtain ⟨items, blank, tail, rfl, hall, hblank, hstuck⟩ := h hstop
      exact .item items hall hblank hstuck
  | ok read =>
      obtain ⟨vs, rest⟩ := read
      obtain ⟨items, hne, rfl, hall, rfl⟩ := h
      exact ⟨_, by simp, .items hne hall⟩

theorem EntriesRead.dict {cs : List Char} {r : Except Stop (List (String × Value) × List Char)}
    (h : EntriesRead depth cs r) :
    ValueRead (depth + 1) ('\x7b' :: cs)
      (r.map fun (es, rest) => (.dict (Record.ofEntries es), rest)) := by
  cases r with
  | error stop =>
      intro hstop
      obtain ⟨members, l, blank, tail, rfl, hall, hblank, hstuck⟩ := h hstop
      exact .member members hall l hblank hstuck
  | ok read =>
      obtain ⟨es, rest⟩ := read
      obtain ⟨members, hne, rfl, hall, rfl⟩ := h
      exact ⟨_, by simp, .members hne hall⟩

end Steps

/-! ## All values -/

/-- What is read is in the grammar, and where the reader stops the text is malformed or goes beyond
a limit. -/
theorem valueRead (fuel : Nat) : ∀ (depth : Nat) (cs : List Char),
    ValueRead depth cs (readValue depth fuel cs) ∧
      ItemsRead depth cs (readItems depth fuel (skipSpace cs)) ∧
      EntriesRead depth cs (readEntries depth fuel (skipSpace cs)) := by
  -- without fuel every text is refused as malformed, which says nothing of a limit
  induction fuel with
  | zero => exact fun depth cs => ⟨nofun, nofun, nofun⟩
  | succ fuel ih =>
      intro depth cs
      refine ⟨?_, itemsRead_step (fun cs => (ih depth cs).1) (fun cs => (ih depth cs).2.1) cs,
        entriesRead_step (fun cs => (ih depth cs).1) (fun cs => (ih depth cs).2.2) cs⟩
      rw [readValue.eq_def]
      dsimp only
      split
      · exact fun _ => .nesting (Or.inl rfl) _
      · exact fun _ => .nesting (Or.inr rfl) _
      · next rest depth =>
          split
          · next tail heq =>
              obtain ⟨blank, hrest, hblank⟩ := exists_blank rest
              exact ⟨_, by rw [hrest, heq]; simp, .noItems hblank⟩
          · exact (ih depth rest).2.1.list
      · next rest depth =>
          split
          · next tail heq =>
              obtain ⟨blank, hrest, hblank⟩ := exists_blank rest
              exact ⟨_, by rw [hrest, heq]; simp, .noMembers hblank⟩
          · exact (ih depth rest).2.2.dict
      · exact valueRead_atom depth _

end Rowgate.Json
