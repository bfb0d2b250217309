import Rowgate.Fault
import Rowgate.Proofs.Json.Completeness
import Rowgate.Proofs.Json.Soundness

/-!
# The texts that are read

The reader takes the JSON texts that keep to its limits, each as the value that it stands for, and
no others (`readWithin_eq_ok_iff`). Where it does not take a text for another reason than that it is
malformed, the text is hindered, and it never takes a text that is (`readAll_atLimit_iff`). So a
text that nothing hinders is read if and only if it is a JSON text (`readAll_iff_isJson`). A byte
order mark changes nothing of this, since no JSON text begins with one.
-/

namespace Rowgate.Json

variable {depth : Nat} {cs : List Char} {v : Value}

theorem readWithin_eq_bind (depth : Nat) (cs : List Char) :
    readWithin depth cs = (readValue depth (2 * cs.length) (skipSpace cs)).bind fun (v, rest) =>
      match skipSpace rest with
      | [] => .ok v
      | rest => .error (.malformed .extra rest.length) := rfl

theorem skipSpace_of_blank {blank : List Char} (h : Blank blank) : skipSpace blank = [] :=
  List.dropWhile_eq_nil_iff.mpr h

/-- The texts that are read as a value are those that stand for it within the limits. -/
theorem readWithin_eq_ok_iff :
    readWithin depth cs = .ok v ↔ SpellsAll Numeral.Readable depth cs v := by
  constructor
  · intro h
    rw [readWithin_eq_bind] at h
    have hvalue := (valueRead (2 * cs.length) depth (skipSpace cs)).1
    cases hread : readValue depth (2 * cs.length) (skipSpace cs) with
    | error stop =>
        rw [hread] at h
        cases h
    | ok read =>
        obtain ⟨w, rest⟩ := read
        rw [hread] at h hvalue
        obtain ⟨text, htext, hspells⟩ := hvalue
        obtain ⟨i, rfl, rfl, hcs⟩ := exists_item htext w
        replace h : (match skipSpace rest with
          | [] => Except.ok i.value
          | rest => .error (Stop.malformed .extra rest.length)) = .ok v := h
        split at h
        · next hend =>
            cases h
            rw [hend, List.append_nil] at hcs
            exact ⟨i, hcs, rfl, hspells⟩
        · cases h
  · rintro ⟨i, rfl, rfl, hspells⟩
    have hskip : skipSpace i.written = i.text ++ i.behind := by
      have := i.skipSpace_written hspells.opening []
      rwa [List.append_nil, List.append_nil] at this
    have hlength := i.length_text_le
    rw [readWithin_eq_bind, hskip, hspells.reads _ _ (.of_blank i.blankBehind) (by omega)]
    show (match skipSpace i.behind with
      | [] => Except.ok i.value
      | rest => .error (Stop.malformed .extra rest.length)) = .ok i.value
    rw [skipSpace_of_blank i.blankBehind]

/-- The texts that are refused because of a limit are those that are hindered. -/
theorem readAll_atLimit_iff : AtLimit (readAll cs) ↔ Hindered cs := by
  constructor
  · rintro ⟨stop, h, hstop⟩
    rw [readAll, readWithin_eq_bind] at h
    have hvalue := (valueRead (2 * cs.length) nestingLimit (skipSpace cs)).1
    cases hread : readValue nestingLimit (2 * cs.length) (skipSpace cs) with
    | error stop' =>
        rw [hread] at h hvalue
        cases h
        obtain ⟨blank, hcs, hblank⟩ := exists_blank cs
        exact ⟨blank, skipSpace cs, hcs, hblank, hvalue hstop⟩
    | ok read =>
        obtain ⟨w, rest⟩ := read
        rw [hread] at h
        replace h : (match skipSpace rest with
          | [] => Except.ok w
          | rest => .error (Stop.malformed .extra rest.length)) = .error stop := h
        split at h
        · cases h
        · cases h
          cases hstop
  · rintro ⟨blank, rest, rfl, hblank, hstuck⟩
    have hlength : rest.length ≤ (blank ++ rest).length := by
      rw [List.length_append]
      omega
    rw [readAll, readWithin_eq_bind, skipSpace_blank hblank, hstuck.opening.skipSpace_eq]
    exact (hstuck.atLimit _ (by omega)).bind _

/-- A text that is a JSON text is read, or it is hindered. -/
theorem IsJson.readable_or_hindered (h : IsJson cs v) :
    SpellsAll Numeral.Readable nestingLimit cs v ∨ Hindered cs := by
  obtain ⟨depth, i, rfl, rfl, hspells⟩ := h
  rcases hspells.readable_or_stuck nestingLimit with hreadable | hstuck
  · exact Or.inl ⟨i, rfl, rfl, hreadable⟩
  · exact Or.inr ⟨i.before, i.text ++ i.behind, rfl, i.blankBefore,
      hstuck _ (.of_blank i.blankBehind)⟩

/-- A text within the limits is not hindered. -/
theorem SpellsAll.not_hindered (h : SpellsAll Numeral.Readable nestingLimit cs v) :
    ¬ Hindered cs := by
  rw [← readAll_atLimit_iff, readAll, readWithin_eq_ok_iff.mpr h]
  rintro ⟨stop, ⟨⟩, -⟩

theorem SpellsAll.isJson {P : Numeral → Prop} {depth : Nat} (h : SpellsAll P depth cs v) :
    IsJson cs v := by
  obtain ⟨i, hcs, hv, hspells⟩ := h
  exact ⟨depth, i, hcs, hv, hspells.imp fun _ _ => trivial⟩

/-- A text that nothing hinders is read if and only if it is a JSON text. -/
theorem readAll_iff_isJson (h : ¬ Hindered cs) : readAll cs = .ok v ↔ IsJson cs v := by
  rw [readAll, readWithin_eq_ok_iff]
  exact ⟨SpellsAll.isJson, fun hjson => hjson.readable_or_hindered.resolve_right h⟩

/-! ## Refusals -/

def Refusal.isMalformed : Refusal → Bool
  | .malformed .. => true
  | _ => false

theorem isMalformed_refusal (cs : List Char) (stop : Stop) :
    (refusal cs stop).isMalformed = stop.isMalformed := by
  cases stop <;> rfl

theorem readDecoded_iff_isJson (h : ¬ Hindered cs) : readDecoded cs = .ok v ↔ IsJson cs v := by
  rw [← readAll_iff_isJson h, readDecoded]
  cases readAll cs with
  | ok w => exact ⟨fun h => by cases h; rfl, fun h => by cases h; rfl⟩
  | error stop => exact ⟨nofun, nofun⟩

theorem readDecoded_hindered_iff :
    Hindered cs ↔ ∃ r, readDecoded cs = .error r ∧ r.isMalformed = false := by
  rw [← readAll_atLimit_iff, AtLimit, readDecoded]
  cases readAll cs with
  | ok w => exact ⟨nofun, nofun⟩
  | error stop =>
      constructor
      · rintro ⟨_, ⟨⟩, hstop⟩
        exact ⟨_, rfl, (isMalformed_refusal cs stop).trans hstop⟩
      · rintro ⟨_, ⟨⟩, hstop⟩
        exact ⟨stop, rfl, (isMalformed_refusal cs stop).symm.trans hstop⟩

/-- No value begins with a byte order mark, and no blank is one. -/
theorem head?_ne_mark {blank rest : List Char} (hblank : Blank blank) (h : Opening rest) :
    (blank ++ rest).head? ≠ some '\uFEFF' := by
  cases blank with
  | nil =>
      obtain ⟨c, cs, rfl, hc⟩ := h
      exact fun heq => ne_of_opens hc (by decide) (Option.some.inj heq)
  | cons c cs =>
      intro heq
      have hspace := hblank c List.mem_cons_self
      rw [Option.some.inj heq] at hspace
      exact absurd hspace (by decide)

theorem read_of_head {cs : List Char} (h : cs.head? ≠ some '\uFEFF') : read cs = readDecoded cs :=
  if_neg h

/-- A text in characters that nothing hinders is read if and only if it is a JSON text. -/
theorem read_iff_isJson (h : ¬ Hindered cs) : read cs = .ok v ↔ IsJson cs v := by
  by_cases hmark : cs.head? = some '\uFEFF'
  · rw [read, if_pos hmark]
    refine ⟨nofun, ?_⟩
    rintro ⟨depth, i, rfl, rfl, hspells⟩
    exact absurd hmark (head?_ne_mark i.blankBefore (hspells.opening.append i.behind))
  · rw [read_of_head hmark, readDecoded_iff_isJson h]

theorem read_hindered_iff : Hindered cs ↔ ∃ r, read cs = .error r ∧ r.isMalformed = false := by
  by_cases hmark : cs.head? = some '\uFEFF'
  · rw [read, if_pos hmark]
    constructor
    · rintro ⟨blank, rest, rfl, hblank, hstuck⟩
      exact absurd hmark (head?_ne_mark hblank hstuck.opening)
    · rintro ⟨_, ⟨⟩, ⟨⟩⟩
  · rw [read_of_head hmark, readDecoded_hindered_iff]

/-! ## Faults -/

end Rowgate.Json

namespace Rowgate.Fault

/-- Whether a fault says that a number is too large or that brackets lie too deep. -/
def IsLimit : Fault → Prop
  | .value (.integer _) => True
  | .exponent => True
  | .nesting _ => True
  | _ => False

theorem ofRefusal_of_malformed {r : Json.Refusal} (h : r.isMalformed = true)
    (malformed : String → Fault) : ofRefusal malformed r = malformed r.message := by
  cases r with
  | malformed => rfl
  | integer | exponent | nesting => cases h

theorem isLimit_ofRefusal {r : Json.Refusal} (h : r.isMalformed = false)
    (malformed : String → Fault) : (ofRefusal malformed r).IsLimit := by
  cases r with
  | malformed => cases h
  | integer | exponent | nesting => exact trivial

end Rowgate.Fault
