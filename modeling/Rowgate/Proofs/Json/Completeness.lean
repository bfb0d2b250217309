import Rowgate.Proofs.Json.Boundary

/-!
# What is in the grammar is read

A text that stands for a value within the limits is read as this value wherever a value may end
(`Spells.reads`), and a text that goes beyond a limit stops the reader there (`Stuck.atLimit`). A
text that stands for a value is one or the other (`Spells.readable_or_stuck`), since what goes wrong
in a list or a dictionary is the first thing that goes wrong in it.
-/

namespace Rowgate.Json

/-- A text is read as a value wherever a value may end, if there is fuel for its characters. -/
def Reads (depth : Nat) (text : List Char) (v : Value) : Prop :=
  ∀ fuel rest, Delimited rest → text.length ≤ fuel →
    readValue depth fuel (text ++ rest) = .ok (v, rest)

/-- Whether the reader stops because of a limit. -/
def AtLimit {α : Type} (r : Except Stop α) : Prop :=
  ∃ stop, r = .error stop ∧ stop.isMalformed = false

theorem AtLimit.bind {α β : Type} {r : Except Stop α} (h : AtLimit r) (f : α → Except Stop β) :
    AtLimit (r.bind f) := by
  obtain ⟨stop, rfl, hstop⟩ := h
  exact ⟨stop, rfl, hstop⟩

theorem AtLimit.map {α β : Type} {r : Except Stop α} (h : AtLimit r) (f : α → β) :
    AtLimit (r.map f) := by
  obtain ⟨stop, rfl, hstop⟩ := h
  exact ⟨stop, rfl, hstop⟩

theorem exists_fuel {n fuel : Nat} (h : n < fuel) : ∃ k, fuel = k + 1 := ⟨fuel - 1, by omega⟩

/-! ## Atoms -/

theorem reads_atom {depth : Nat} {c : Char} (hl : c ≠ '[') (hd : c ≠ '\x7b') {cs : List Char}
    {v : Value} (h : ∀ rest, readAtom (c :: (cs ++ rest)) = .ok (v, rest)) :
    Reads depth (c :: cs) v := by
  intro fuel rest _ hfuel
  obtain ⟨fuel, rfl⟩ := exists_fuel (Nat.lt_of_lt_of_le (Nat.succ_pos _) hfuel)
  rw [List.cons_append, readValue_atom hl hd]
  exact h rest

theorem reads_number {depth : Nat} {n : Numeral} (h : n.Readable) : Reads depth n.text n.value := by
  intro fuel rest hrest hfuel
  obtain ⟨fuel, rfl⟩ := exists_fuel (Nat.lt_of_lt_of_le n.opening.length_pos hfuel)
  obtain ⟨left, hread⟩ := readAtom_numeral n rest
  rw [n.atom, hread, readUnsigned_of_readable (hrest.endsBefore n) h]

theorem reads_string {depth : Nat} {quoted text : List Char} (h : Quoted quoted text) :
    Reads depth ('"' :: (quoted ++ ['"'])) (.str (String.ofList text)) := by
  refine reads_atom (by decide) (by decide) fun rest => ?_
  rw [List.append_assoc, List.singleton_append, readAtom, readString_quoted h]
  rfl

/-! ## Lists and dictionaries -/

section Parts

variable {depth fuel : Nat} {rest : List Char}

/-- An item is read, and what comes after it decides. -/
theorem readItems_item {i : Item} (hi : Opening i.text) (h : Reads depth i.text i.value)
    (hfuel : i.text.length ≤ fuel) (hrest : Delimited rest) :
    readItems depth (fuel + 1) (skipSpace (i.written ++ rest)) =
      match skipSpace rest with
      | ']' :: rest => .ok ([i.value], rest)
      | ',' :: rest =>
        (readItems depth fuel (skipSpace rest)).bind fun (vs, rest) => .ok (i.value :: vs, rest)
      | rest => .error (.malformed .comma rest.length) := by
  rw [i.skipSpace_written hi, readItems, h fuel _ (hrest.blank_append i.blankBehind) hfuel]
  show (match skipSpace (i.behind ++ rest) with
    | ']' :: rest => _
    | ',' :: rest => _
    | rest => _) = _
  rw [skipSpace_blank i.blankBehind]
  rfl

/-- A member is read, and what comes after it decides. -/
theorem readEntries_member {m : Member} (hm : Opening m.item.text)
    (h : Reads depth m.item.text m.item.value) (hfuel : m.item.text.length ≤ fuel)
    (hrest : Delimited rest) :
    readEntries depth (fuel + 1) (skipSpace (m.written ++ rest)) =
      match skipSpace rest with
      | '\x7d' :: rest => .ok ([m.entry], rest)
      | ',' :: rest =>
        (readEntries depth fuel (skipSpace rest)).bind fun (es, rest) => .ok (m.entry :: es, rest)
      | rest => .error (.malformed .comma rest.length) := by
  rw [Member.written, List.append_assoc, readEntries_label, m.item.skipSpace_written hm,
    h fuel _ (hrest.blank_append m.item.blankBehind) hfuel]
  show (match skipSpace (m.item.behind ++ rest) with
    | '\x7d' :: rest => _
    | ',' :: rest => _
    | rest => _) = _
  rw [skipSpace_blank m.item.blankBehind]
  rfl

theorem Item.length_text_le (i : Item) : i.text.length ≤ i.written.length := by
  rw [written, List.length_append, List.length_append]
  omega

theorem Member.length_text_le (m : Member) : m.item.text.length ≤ m.written.length := by
  have := m.item.length_text_le
  rw [written, List.length_append]
  omega

/-- The items of a list are read up to its end. -/
theorem readItems_joined {items : List Item} (hne : items ≠ [])
    (h : ∀ i ∈ items, Opening i.text ∧ Reads depth i.text i.value)
    (hfuel : (joined (items.map Item.written)).length < fuel) :
    readItems depth fuel (skipSpace (joined (items.map Item.written) ++ ']' :: rest)) =
      .ok (items.map Item.value, rest) := by
  induction items generalizing fuel with
  | nil => exact absurd rfl hne
  | cons i items ih =>
      obtain ⟨fuel, rfl⟩ := exists_fuel hfuel
      obtain ⟨hi, hread⟩ := h i List.mem_cons_self
      have hlength := i.length_text_le
      by_cases hnil : items = []
      · subst hnil
        rw [List.map_singleton, joined] at hfuel ⊢
        rw [readItems_item hi hread (by omega) (.bracket rest)]
        rfl
      · rw [List.map_cons, joined_cons (by simpa using hnil)] at hfuel ⊢
        rw [List.length_append, List.length_cons] at hfuel
        rw [List.append_assoc, List.cons_append, readItems_item hi hread (by omega) (.comma _)]
        show (readItems depth fuel (skipSpace _)).bind _ = _
        rw [ih hnil (fun j hj => h j (List.mem_cons_of_mem i hj)) (by omega)]
        rfl

/-- The members of a dictionary are read up to its end. -/
theorem readEntries_joined {members : List Member} (hne : members ≠ [])
    (h : ∀ m ∈ members, Opening m.item.text ∧ Reads depth m.item.text m.item.value)
    (hfuel : (joined (members.map Member.written)).length < fuel) :
    readEntries depth fuel (skipSpace (joined (members.map Member.written) ++ '\x7d' :: rest)) =
      .ok (members.map Member.entry, rest) := by
  induction members generalizing fuel with
  | nil => exact absurd rfl hne
  | cons m members ih =>
      obtain ⟨fuel, rfl⟩ := exists_fuel hfuel
      obtain ⟨hm, hread⟩ := h m List.mem_cons_self
      have hlength := m.length_text_le
      by_cases hnil : members = []
      · subst hnil
        rw [List.map_singleton, joined] at hfuel ⊢
        rw [readEntries_member hm hread (by omega) (.brace rest)]
        rfl
      · rw [List.map_cons, joined_cons (by simpa using hnil)] at hfuel ⊢
        rw [List.length_append, List.length_cons] at hfuel
        rw [List.append_assoc, List.cons_append, readEntries_member hm hread (by omega) (.comma _)]
        show (readEntries depth fuel (skipSpace _)).bind _ = _
        rw [ih hnil (fun j hj => h j (List.mem_cons_of_mem m hj)) (by omega)]
        rfl

theorem opening_joined {texts : List (List Char)} (hne : texts ≠ [])
    (h : ∀ text ∈ texts, ∀ cs, Opening (skipSpace (text ++ cs))) (cs : List Char) :
    Opening (skipSpace (joined texts ++ cs)) := by
  cases texts with
  | nil => exact absurd rfl hne
  | cons text texts =>
      have hfirst := h text List.mem_cons_self
      by_cases hnil : texts = []
      · rw [hnil]
        exact hfirst cs
      · rw [joined_cons hnil, List.append_assoc]
        exact hfirst _

theorem opening_listed {texts : List (List Char)} {cs : List Char} (hcs : Opening (skipSpace cs))
    (h : ∀ text ∈ texts, ∀ cs, Opening (skipSpace (text ++ cs))) :
    Opening (skipSpace (listed texts ++ cs)) := by
  cases texts with
  | nil => exact hcs
  | cons text texts =>
      rw [listed_cons]
      exact h text List.mem_cons_self _

theorem Item.opening_written {i : Item} (h : Opening i.text) (cs : List Char) :
    Opening (skipSpace (i.written ++ cs)) := by
  rw [i.skipSpace_written h]
  exact h.append _

theorem Label.opening_written (l : Label) (cs : List Char) :
    Opening (skipSpace (l.written ++ cs)) := by
  rw [l.skipSpace_written]
  exact ⟨_, _, rfl, rfl⟩

theorem Member.opening_written (m : Member) (cs : List Char) :
    Opening (skipSpace (m.written ++ cs)) := by
  rw [written, List.append_assoc]
  exact m.label.opening_written _

end Parts

/-! ## All values -/

/-- What stands for a value within the limits is read as this value. -/
theorem Spells.reads {depth : Nat} {text : List Char} {v : Value}
    (h : Spells Numeral.Readable depth text v) : Reads depth text v := by
  induction h with
  | null | true | false | nan | infinity | minusInfinity =>
      exact reads_atom (by decide) (by decide) fun _ => rfl
  | number n hn => exact reads_number hn
  | string hquoted => exact reads_string hquoted
  | @noItems depth blank hblank =>
      intro fuel rest _ hfuel
      obtain ⟨fuel, rfl⟩ := exists_fuel (Nat.lt_of_lt_of_le (Nat.succ_pos _) hfuel)
      rw [List.cons_append, List.append_assoc, readValue, skipSpace_blank hblank]
      rfl
  | @items depth items hne hitems ih =>
      intro fuel rest _ hfuel
      obtain ⟨fuel, rfl⟩ := exists_fuel (Nat.lt_of_lt_of_le (Nat.succ_pos _) hfuel)
      rw [List.length_cons, List.length_append, List.length_singleton] at hfuel
      have hopening : ∀ text ∈ items.map Item.written, ∀ cs, Opening (skipSpace (text ++ cs)) :=
        List.forall_mem_map.mpr fun i hi => Item.opening_written (hitems i hi).opening
      rw [List.cons_append, List.append_assoc, List.singleton_append,
        readValue_items (opening_joined (by simpa using hne) hopening _),
        readItems_joined hne (fun i hi => ⟨(hitems i hi).opening, ih i hi⟩) (by omega)]
      rfl
  | @noMembers depth blank hblank =>
      intro fuel rest _ hfuel
      obtain ⟨fuel, rfl⟩ := exists_fuel (Nat.lt_of_lt_of_le (Nat.succ_pos _) hfuel)
      rw [List.cons_append, List.append_assoc, readValue, skipSpace_blank hblank]
      rfl
  | @members depth members hne hmembers ih =>
      intro fuel rest _ hfuel
      obtain ⟨fuel, rfl⟩ := exists_fuel (Nat.lt_of_lt_of_le (Nat.succ_pos _) hfuel)
      rw [List.length_cons, List.length_append, List.length_singleton] at hfuel
      have hopening : ∀ text ∈ members.map Member.written, ∀ cs,
          Opening (skipSpace (text ++ cs)) :=
        List.forall_mem_map.mpr fun m _ => m.opening_written
      rw [List.cons_append, List.append_assoc, List.singleton_append,
        readValue_entries (opening_joined (by simpa using hne) hopening _),
        readEntries_joined hne (fun m hm => ⟨(hmembers m hm).opening, ih m hm⟩) (by omega)]
      rfl

/-! ## Beyond the limits -/

section Beyond

variable {depth : Nat} {blank rest : List Char}

/-- Items after which the reader stops. -/
theorem readItems_listed {items : List Item}
    (h : ∀ i ∈ items, Opening i.text ∧ Reads depth i.text i.value) (hblank : Blank blank)
    (hopening : Opening rest)
    (hrest : ∀ fuel, 2 * rest.length ≤ fuel → AtLimit (readValue depth fuel rest)) {fuel : Nat}
    (hfuel : 2 * (listed (items.map Item.written) ++ (blank ++ rest)).length < fuel) :
    AtLimit (readItems depth fuel
      (skipSpace (listed (items.map Item.written) ++ (blank ++ rest)))) := by
  induction items generalizing fuel with
  | nil =>
      obtain ⟨fuel, rfl⟩ := exists_fuel hfuel
      show AtLimit (readItems depth (fuel + 1) (skipSpace (blank ++ rest)))
      have hlength : rest.length ≤ (blank ++ rest).length := by
        rw [List.length_append]
        omega
      replace hfuel : 2 * (blank ++ rest).length < fuel + 1 := hfuel
      rw [skipSpace_blank hblank, hopening.skipSpace_eq, readItems]
      exact (hrest fuel (by omega)).bind _
  | cons i items ih =>
      obtain ⟨fuel, rfl⟩ := exists_fuel hfuel
      obtain ⟨hi, hread⟩ := h i List.mem_cons_self
      have hlength := i.length_text_le
      rw [List.map_cons, listed_cons] at hfuel ⊢
      rw [List.length_append, List.length_cons] at hfuel
      rw [readItems_item hi hread (by omega) (.comma _)]
      exact (ih (fun j hj => h j (List.mem_cons_of_mem i hj)) (by omega)).bind _

/-- Members and a label after which the reader stops. -/
theorem readEntries_listed {members : List Member}
    (h : ∀ m ∈ members, Opening m.item.text ∧ Reads depth m.item.text m.item.value) (l : Label)
    (hblank : Blank blank) (hopening : Opening rest)
    (hrest : ∀ fuel, 2 * rest.length ≤ fuel → AtLimit (readValue depth fuel rest)) {fuel : Nat}
    (hfuel : 2 * (listed (members.map Member.written) ++ (l.written ++ (blank ++ rest))).length <
      fuel) :
    AtLimit (readEntries depth fuel
      (skipSpace (listed (members.map Member.written) ++ (l.written ++ (blank ++ rest))))) := by
  induction members generalizing fuel with
  | nil =>
      obtain ⟨fuel, rfl⟩ := exists_fuel hfuel
      show AtLimit (readEntries depth (fuel + 1) (skipSpace (l.written ++ (blank ++ rest))))
      have hlength : rest.length ≤ (l.written ++ (blank ++ rest)).length := by
        rw [List.length_append, List.length_append]
        omega
      replace hfuel : 2 * (l.written ++ (blank ++ rest)).length < fuel + 1 := hfuel
      rw [readEntries_label, skipSpace_blank hblank, hopening.skipSpace_eq]
      exact (hrest fuel (by omega)).bind _
  | cons m members ih =>
      obtain ⟨fuel, rfl⟩ := exists_fuel hfuel
      obtain ⟨hm, hread⟩ := h m List.mem_cons_self
      have hlength := m.length_text_le
      rw [List.map_cons, listed_cons] at hfuel ⊢
      rw [List.length_append, List.length_cons] at hfuel
      rw [readEntries_member hm hread (by omega) (.comma _)]
      exact (ih (fun j hj => h j (List.mem_cons_of_mem m hj)) (by omega)).bind _

end Beyond

/-- What goes beyond a limit stops the reader. -/
theorem Stuck.atLimit {depth : Nat} {cs : List Char} (h : Stuck depth cs) :
    ∀ fuel, 2 * cs.length ≤ fuel → AtLimit (readValue depth fuel cs) := by
  induction h with
  | nesting hc rest =>
      intro fuel hfuel
      rw [List.length_cons] at hfuel
      obtain ⟨fuel, rfl⟩ := exists_fuel (show 0 < fuel by omega)
      rcases hc with rfl | rfl
      · exact ⟨.nesting '[', rfl, rfl⟩
      · exact ⟨.nesting '\x7b', rfl, rfl⟩
  | number n hn hend =>
      intro fuel hfuel
      have hpos := n.opening.length_pos
      rw [List.length_append] at hfuel
      obtain ⟨fuel, rfl⟩ := exists_fuel (show 0 < fuel by omega)
      obtain ⟨left, hread⟩ := readAtom_numeral n _
      rw [n.atom, hread]
      exact readUnsigned_of_not_readable hend hn left
  | @item depth items hitems blank rest hblank hstuck ih =>
      intro fuel hfuel
      rw [List.length_cons] at hfuel
      obtain ⟨fuel, rfl⟩ := exists_fuel (show 0 < fuel by omega)
      have hopening : Opening (skipSpace (blank ++ rest)) := by
        rw [skipSpace_blank hblank, hstuck.opening.skipSpace_eq]
        exact hstuck.opening
      rw [readValue_items (opening_listed hopening
        (List.forall_mem_map.mpr fun i hi => Item.opening_written (hitems i hi).opening))]
      exact (readItems_listed (fun i hi => ⟨(hitems i hi).opening, (hitems i hi).reads⟩) hblank
        hstuck.opening ih (by omega)).map _
  | @member depth members hmembers l blank rest hblank hstuck ih =>
      intro fuel hfuel
      rw [List.length_cons] at hfuel
      obtain ⟨fuel, rfl⟩ := exists_fuel (show 0 < fuel by omega)
      rw [readValue_entries (opening_listed (l.opening_written _)
        (List.forall_mem_map.mpr fun m _ => m.opening_written))]
      exact (readEntries_listed (fun m hm => ⟨(hmembers m hm).opening, (hmembers m hm).reads⟩) l
        hblank hstuck.opening ih (by omega)).map _

/-! ## Within the limits or beyond them -/

theorem Spells.imp {P Q : Numeral → Prop} (hPQ : ∀ n, P n → Q n) {depth : Nat} {text : List Char}
    {v : Value} (h : Spells P depth text v) : Spells Q depth text v := by
  induction h with
  | null => exact .null
  | true => exact .true
  | false => exact .false
  | nan => exact .nan
  | infinity => exact .infinity
  | minusInfinity => exact .minusInfinity
  | number n hn => exact .number n (hPQ n hn)
  | string hquoted => exact .string hquoted
  | noItems hblank => exact .noItems hblank
  | items hne _ ih => exact .items hne ih
  | noMembers hblank => exact .noMembers hblank
  | members hne _ ih => exact .members hne ih

/-- Either all have a property, or there is a first one that has the other. -/
theorem forall_or_first {α : Type} {p q : α → Prop} {as : List α} (h : ∀ a ∈ as, p a ∨ q a) :
    (∀ a ∈ as, p a) ∨ ∃ before a after, as = before ++ a :: after ∧ (∀ b ∈ before, p b) ∧ q a := by
  induction as with
  | nil => exact Or.inl nofun
  | cons a as ih =>
      rcases h a List.mem_cons_self with ha | ha
      · rcases ih fun b hb => h b (List.mem_cons_of_mem a hb) with hall | hfirst
        · exact Or.inl (List.forall_mem_cons.mpr ⟨ha, hall⟩)
        · obtain ⟨before, b, after, rfl, hbefore, hb⟩ := hfirst
          exact Or.inr ⟨a :: before, b, after, rfl, List.forall_mem_cons.mpr ⟨ha, hbefore⟩, hb⟩
      · exact Or.inr ⟨[], a, as, rfl, nofun, ha⟩

/-- After one of several texts with commas between them the list goes on or ends. -/
theorem exists_tail {close : List Char} (hclose : Delimited close) (before : List (List Char))
    (text : List Char) (after : List (List Char)) :
    ∃ tail, Delimited tail ∧
      joined (before ++ text :: after) ++ close = listed before ++ (text ++ tail) := by
  induction before with
  | nil =>
      by_cases hnil : after = []
      · exact ⟨close, hclose, by rw [hnil]; rfl⟩
      · refine ⟨',' :: (joined after ++ close), .comma _, ?_⟩
        rw [List.nil_append, joined_cons hnil, List.append_assoc]
        rfl
  | cons t before ih =>
      obtain ⟨tail, htail, heq⟩ := ih
      refine ⟨tail, htail, ?_⟩
      rw [List.cons_append, joined_cons (by simp), List.append_assoc, List.cons_append, heq,
        listed_cons]

/-- A list goes beyond a limit where its first item does that is not within the limits. -/
theorem stuck_of_item {limit : Nat} {before after : List Item} {i : Item}
    (hbefore : ∀ j ∈ before, Spells Numeral.Readable limit j.text j.value)
    (hi : ∀ rest, Delimited rest → Stuck limit (i.text ++ rest)) (rest : List Char) :
    Stuck (limit + 1)
      ('[' :: (joined ((before ++ i :: after).map Item.written) ++ [']']) ++ rest) := by
  obtain ⟨tail, htail, heq⟩ := exists_tail (.bracket rest) (before.map Item.written) i.written
    (after.map Item.written)
  have hstuck := hi _ (htail.blank_append i.blankBehind)
  rw [List.cons_append, List.append_assoc, List.singleton_append, List.map_append, List.map_cons,
    heq, Item.written, List.append_assoc, List.append_assoc]
  exact .item before hbefore i.blankBefore hstuck

theorem stuck_of_member {limit : Nat} {before after : List Member} {m : Member}
    (hbefore : ∀ k ∈ before, Spells Numeral.Readable limit k.item.text k.item.value)
    (hm : ∀ rest, Delimited rest → Stuck limit (m.item.text ++ rest)) (rest : List Char) :
    Stuck (limit + 1)
      ('\x7b' :: (joined ((before ++ m :: after).map Member.written) ++ ['\x7d']) ++ rest) := by
  obtain ⟨tail, htail, heq⟩ := exists_tail (.brace rest) (before.map Member.written) m.written
    (after.map Member.written)
  have hstuck := hm _ (htail.blank_append m.item.blankBehind)
  rw [List.cons_append, List.append_assoc, List.singleton_append, List.map_append, List.map_cons,
    heq, Member.written, Item.written, List.append_assoc, List.append_assoc, List.append_assoc]
  exact .member before hbefore m.label m.item.blankBefore hstuck

/-- What stands for a value does so within the limits, or it goes beyond them. -/
theorem Spells.readable_or_stuck {P : Numeral → Prop} {depth : Nat} {text : List Char} {v : Value}
    (h : Spells P depth text v) : ∀ limit, Spells Numeral.Readable limit text v ∨
      ∀ rest, Delimited rest → Stuck limit (text ++ rest) := by
  induction h with
  | null => exact fun _ => Or.inl .null
  | true => exact fun _ => Or.inl .true
  | false => exact fun _ => Or.inl .false
  | nan => exact fun _ => Or.inl .nan
  | infinity => exact fun _ => Or.inl .infinity
  | minusInfinity => exact fun _ => Or.inl .minusInfinity
  | string hquoted => exact fun _ => Or.inl (.string hquoted)
  | number n _ =>
      intro limit
      by_cases hn : n.Readable
      · exact Or.inl (.number n hn)
      · exact Or.inr fun rest hrest => .number n hn (hrest.endsBefore n)
  | noItems hblank =>
      intro limit
      cases limit with
      | zero => exact Or.inr fun _ _ => .nesting (Or.inl rfl) _
      | succ limit => exact Or.inl (.noItems hblank)
  | noMembers hblank =>
      intro limit
      cases limit with
      | zero => exact Or.inr fun _ _ => .nesting (Or.inr rfl) _
      | succ limit => exact Or.inl (.noMembers hblank)
  | items hne _ ih =>
      intro limit
      cases limit with
      | zero => exact Or.inr fun _ _ => .nesting (Or.inl rfl) _
      | succ limit =>
          rcases forall_or_first fun i hi => ih i hi limit with
            hall | ⟨before, i, after, rfl, hbefore, hi⟩
          · exact Or.inl (.items hne hall)
          · exact Or.inr fun rest _ => stuck_of_item hbefore hi rest
  | members hne _ ih =>
      intro limit
      cases limit with
      | zero => exact Or.inr fun _ _ => .nesting (Or.inr rfl) _
      | succ limit =>
          rcases forall_or_first fun m hm => ih m hm limit with
            hall | ⟨before, m, after, rfl, hbefore, hm⟩
          · exact Or.inl (.members hne hall)
          · exact Or.inr fun rest _ => stuck_of_member hbefore hm rest

end Rowgate.Json
