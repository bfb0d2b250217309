import Mathlib.Data.List.Count
import Rowgate.Calendar.Pattern

/-!
# Texts without a pattern

Every pattern of dates has two marks of one kind, and whatever matches it has to have them too
(`countP_le_of_matchItems`). So a text with too few marks is no date and no timestamp of any of the
patterns, whatever its numbers are (`readDate?_eq_none`, `readDateTime?_eq_none`).
-/

namespace Rowgate.Pattern

/-- Whether an item stands for a given character. -/
def Item.marks (c : Char) : Item → Bool
  | .mark d => d == c
  | _ => false

theorem Spelling.append_of_take? {spelling : Spelling} {cs taken rest : List Char}
    (h : spelling.take? cs = some (taken, rest)) : taken ++ rest = cs := by
  induction spelling generalizing cs taken with
  | nil =>
      cases h
      rfl
  | cons p spelling ih =>
      cases cs with
      | nil => cases h
      | cons c cs =>
          rw [take?] at h
          split at h
          · obtain ⟨⟨ds, rest'⟩, htake, heq⟩ := Option.map_eq_some_iff.mp h
            cases heq
            rw [List.cons_append, ih htake]
          · cases h

/-- The character of a mark is taken from the text. -/
theorem countP_take? {c : Char} {item : Item} {spelling : Spelling} {cs taken rest : List Char}
    (hspelling : spelling ∈ item.spellings) (h : spelling.take? cs = some (taken, rest)) :
    [item].countP (Item.marks c) + rest.count c ≤ cs.count c := by
  have hcount : taken.count c + rest.count c = cs.count c := by
    rw [← List.count_append, Spelling.append_of_take? h]
  suffices hitem : [item].countP (Item.marks c) ≤ taken.count c by omega
  cases item with
  | mark d =>
      cases List.mem_singleton.mp hspelling
      cases cs with
      | nil => cases h
      | cons e cs =>
          rw [Spelling.take?] at h
          split at h
          · next heq =>
              rw [beq_iff_eq] at heq
              cases h
              have hsame : [Item.mark d].countP (Item.marks c) = [e].count c := by
                rw [heq, List.countP_singleton, List.count_singleton, Item.marks]
              exact Nat.le_of_eq hsame
          · cases h
  | _ => exact Nat.zero_le _

theorem countP_le_of_matchItems (c : Char) {items : List Item} {ns ns' : Numbers}
    {cs rest : List Char} (h : matchItems items ns cs = some (ns', rest)) :
    items.countP (Item.marks c) + rest.count c ≤ cs.count c := by
  induction items generalizing ns cs with
  | nil =>
      cases h
      simp
  | cons item items ih =>
      have hsplit : (item :: items).countP (Item.marks c) =
          [item].countP (Item.marks c) + items.countP (Item.marks c) := by
        rw [← List.countP_append, List.singleton_append]
      cases item with
      -- blanks are dropped from the text at once, not by one of the spellings of an item
      | blanks =>
          rw [matchItems] at h
          split at h
          · have hrest := ih h
            have hdrop := (List.dropWhile_suffix Text.isBlank (l := cs)).count_le c
            have hblanks : [Item.blanks].countP (Item.marks c) = 0 := rfl
            omega
          · cases h
      | _ =>
          obtain ⟨spelling, hspelling, hbind⟩ := List.exists_of_findSome?_eq_some h
          obtain ⟨⟨taken, rest'⟩, htake, hmatch⟩ := Option.bind_eq_some_iff.mp hbind
          have hitem := countP_take? (c := c) hspelling htake
          have hrest := ih hmatch
          omega

theorem numbers?_eq_none {c : Char} {items : List Item} {cs : List Char}
    (h : cs.count c < items.countP (Item.marks c)) : numbers? items cs = none := by
  rw [numbers?]
  split
  · next hmatch =>
      have hle := countP_le_of_matchItems c hmatch
      omega
  · rfl

section Dates

variable {cs : List Char}

theorem numbers?_eq_none_of_dates (hslash : cs.count '/' = 0) (hpoint : cs.count '.' < 2) :
    ∀ items ∈ datePatterns ++ dateTimePatterns, numbers? items cs = none := by
  have hslashes : ∀ items : List Item, 0 < items.countP (Item.marks '/') →
      numbers? items cs = none := fun items hitems => numbers?_eq_none (hslash ▸ hitems)
  intro items hitems
  simp only [datePatterns, dateTimePatterns, List.cons_append, List.nil_append, List.mem_cons,
    List.not_mem_nil, or_false] at hitems
  rcases hitems with rfl | rfl | rfl | rfl | rfl | rfl
  · exact hslashes _ (by decide)
  · exact numbers?_eq_none (c := '.') hpoint
  · exact hslashes _ (by decide)
  · exact hslashes _ (by decide)
  · exact hslashes _ (by decide)
  · exact hslashes _ (by decide)

theorem readDate?_eq_none (hslash : cs.count '/' = 0) (hpoint : cs.count '.' < 2) :
    readDate? cs = none := by
  refine List.findSome?_eq_none_iff.mpr fun items hitems => ?_
  rw [numbers?_eq_none_of_dates hslash hpoint items (List.mem_append_left _ hitems)]
  rfl

theorem readDateTime?_eq_none (hslash : cs.count '/' = 0) (hpoint : cs.count '.' < 2) :
    readDateTime? cs = none := by
  refine List.findSome?_eq_none_iff.mpr fun items hitems => ?_
  rw [numbers?_eq_none_of_dates hslash hpoint items (List.mem_append_right _ hitems)]
  rfl

end Dates

end Rowgate.Pattern
