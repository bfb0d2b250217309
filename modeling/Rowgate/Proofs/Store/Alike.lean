import Rowgate.Proofs.Entity.Form
import Rowgate.Proofs.Filter.Tidied
import Rowgate.Proofs.Outcome
import Rowgate.Store.Predicate

/-!
# A filter that is read back selects the same records

A filter that went through JSON is tidied, and the conditions of its tests may be spelled in another
way. It is compiled for the same records all the same, unless a test takes as a text what is spelled in
another way; `Test.Steady` rules that out. Predicates are compared by what they accept
(`Predicate.Alike`), which is all that a page depends on.
-/

namespace Rowgate

/-! ## Conditions that are read back -/

namespace Test

variable {t : Test} {fields : List Field} {o : Operator} {c : Value}

/-- Whether a test takes its condition as a text: to look for it in another one, or because the field
holds texts. -/
def readsText (t : Test) (fields : List Field) : Bool :=
  !t.operator.any Operator.isValueless &&
    (t.operator.any Operator.isTextual ||
      (fieldNamed? fields t.fieldName).any fun f => f.kind == .string)

/-- Whether a test that takes its condition as a text takes it as the same one after it was read
back. -/
def Steady (fields : List Field) (t : Test) : Prop :=
  t.readsText fields = true → t.value.reread.plainText = t.value.plainText

theorem asText_eq (v : Value) :
    asText v = (v.plainText.map Value.str).mapError fun f => .value (.integer f) := by
  cases v with
  | str s =>
      show _ = Except.ok (Value.str (String.ofList s.toList))
      rw [String.ofList_toList]
      rfl
  | _ =>
      rw [asText]
      · cases Value.plainText _ <;> rfl
      · exact fun _ => nofun

end Test

theorem toText_reread {v : Value} {s : String} (h : toText v = .ok s)
    (htext : v.reread.plainText = v.plainText) : toText v.reread = .ok s := by
  cases v with
  | list vs => cases h
  | dict es => cases h
  | decimal d =>
      have hd : toText (Value.decimal d).reread =
          (Value.decimal d).reread.plainText.mapError .integer := by
        cases d with
        | finite n c e =>
            rw [Value.reread, Decimal.reread]
            split <;> rfl
        | _ => rfl
      rw [hd, htext]
      exact h
  | _ => exact h

theorem toNumber_reread {v w : Value} {scale : Int} (h : toNumber scale v = .ok w) :
    ∃ w', toNumber scale v.reread = .ok w' ∧ w'.reread = w.reread := by
  cases v with
  | list vs => cases h
  | dict es => cases h
  | decimal d =>
      cases d with
      | finite n c e =>
          rw [Value.reread, Decimal.reread]
          split
          · next hi =>
              refine ⟨_, rfl, ?_⟩
              rw [toNumber, numberOfDecimal] at h
              split at h
              · next hscale =>
                  cases h
                  rw [if_pos hscale.1]
              · next hscale =>
                  cases h
                  have hne : ¬ scale = 0 := fun hz => hscale ⟨hz, hi⟩
                  rw [if_neg hne, Value.reread, Decimal.reread_ofInt, Value.reread, Decimal.reread,
                    if_pos hi]
          · exact ⟨w, h, rfl⟩
      | _ => exact ⟨w, h, rfl⟩
  | _ => exact ⟨w, h, rfl⟩

/-- A value that a field takes is taken in a form that is compared alike when it was read back; a text
has to be written in the same way. -/
theorem Field.coerceSome_reread {f : Field} {v w : Value} (h : f.coerceSome v = .ok w)
    (hsame : f.kind = .string → v.reread.plainText = v.plainText) :
    ∃ w', f.coerceSome v.reread = .ok w' ∧ w'.reread = w.reread := by
  rw [coerceSome] at h ⊢
  cases hk : f.kind <;> rw [hk] at h
  case string =>
    obtain ⟨s, hs, rfl⟩ := map_eq_ok h
    exact ⟨.str s, by simp only [toText_reread hs (hsame hk)]; rfl, rfl⟩
  case numeric => exact toNumber_reread h
  -- No other field takes a list, a dictionary or a decimal, and nothing else changes.
  all_goals
    obtain ⟨a, ha, -⟩ := map_eq_ok h
    have hv : v.reread = v := by cases v <;> first | rfl | cases ha
    rw [hv]
    exact ⟨w, h, rfl⟩

namespace Test

variable {t : Test} {fields : List Field} {o : Operator} {c : Value}

theorem plainText_of_steady (h : t.Steady fields) (ho : t.operator = some o)
    (hvalued : o.isValueless = false) (hreads : o.isTextual = true ∨
      ∃ f, fieldNamed? fields t.fieldName = some f ∧ f.kind = .string) :
    t.value.reread.plainText = t.value.plainText := by
  refine h ?_
  rw [readsText, ho, Option.any_some, Option.any_some, hvalued, Bool.not_false, Bool.true_and,
    Bool.or_eq_true]
  refine hreads.imp_right ?_
  rintro ⟨f, hf, hkind⟩
  rw [hf, Option.any_some, hkind]
  rfl

theorem coerced_reread (h : t.coerced (fieldNamed? fields t.fieldName) = .ok c)
    (hnull : t.value.isNull = false) (hsame : ∀ f, fieldNamed? fields t.fieldName = some f →
      f.kind = .string → t.value.reread.plainText = t.value.plainText) :
    ∃ c', t.reread.coerced (fieldNamed? fields t.fieldName) = .ok c' ∧ c'.reread = c.reread := by
  rw [coerced] at h ⊢
  have hnull' : t.value.reread.isNull = false := by rw [Value.isNull_reread, hnull]
  cases hf : fieldNamed? fields t.fieldName with
  | none =>
      rw [hf] at h
      cases h
      exact ⟨t.value.reread, rfl, Value.reread_reread _⟩
  | some f =>
      rw [hf, coerceFor, Field.coerce_of_not_null hnull] at h
      cases hv : f.coerceSome t.value with
      | error fault =>
          rw [hv] at h
          cases h
      | ok w =>
          rw [hv] at h
          cases h
          obtain ⟨w', hw', hsame'⟩ := Field.coerceSome_reread hv (hsame f hf)
          refine ⟨w', ?_, hsame'⟩
          show (f.coerce t.value.reread).mapError _ = _
          rw [Field.coerce_of_not_null hnull', hw']
          rfl

/-- The condition of a steady test, when it was read back, is the same or one that is compared
alike. -/
theorem condition_reread (hsteady : t.Steady fields) (ho : t.operator = some o)
    (h : t.condition (fieldNamed? fields t.fieldName) = .ok c) :
    ∃ c', t.reread.condition (fieldNamed? fields t.fieldName) = .ok c' ∧
      (c' = c ∨ o.isTextual = false ∧ c'.reread = c.reread) := by
  have ho' : t.reread.operator = some o := ho
  have hvalue : t.reread.value = t.value.reread := rfl
  rw [condition, ho, Option.any_some, Option.any_some] at h
  rw [condition, ho', hvalue, Value.isNull_reread, Option.any_some, Option.any_some]
  by_cases hnull : (o.isValueless || t.value.isNull) = true
  · rw [if_pos hnull] at h ⊢
    exact ⟨c, h, .inl rfl⟩
  rw [if_neg hnull] at h ⊢
  rw [Bool.not_eq_true, Bool.or_eq_false_iff] at hnull
  by_cases htextual : o.isTextual = true
  · rw [if_pos htextual] at h ⊢
    refine ⟨c, ?_, .inl rfl⟩
    rw [asText_eq, plainText_of_steady hsteady ho hnull.1 (.inl htextual), ← asText_eq, h]
  · rw [if_neg htextual] at h ⊢
    obtain ⟨c', hc', hsame⟩ := coerced_reread h hnull.2 fun f hf hkind =>
      plainText_of_steady hsteady ho hnull.1 (.inr ⟨f, hf, hkind⟩)
    exact ⟨c', hc', .inr ⟨by simpa using htextual, hsame⟩⟩

end Test

/-! ## Predicates that accept the same records -/

/-- Whether what a record has beside the fields of the metadata is of the kinds that records hold. -/
def Record.Scalar (fields : List Field) (r : Record) : Prop :=
  ∀ entry ∈ r, fieldNamed? fields entry.1 = none → entry.2.isScalar = true

theorem Record.Scalar.field {fields : List Field} {r : Record} (h : r.Scalar fields) {name : String}
    (hname : fieldNamed? fields name = none) : (Record.field r name).isScalar = true := by
  rw [Record.field]
  induction r with
  | nil => rfl
  | cons first rest ih =>
      obtain ⟨k, v⟩ := first
      obtain ⟨hv, hrest⟩ := List.forall_mem_cons.mp h
      rw [Record.field?]
      split
      · next heq => exact hv (heq ▸ hname)
      · exact ih hrest

/-- The value that a test compares is of a kind that records hold: a field has only such values, and
the record has no others beside them. -/
theorem isScalar_coerceFor {fields : List Field} {r : Record} (h : r.Scalar fields) {name : String}
    {v : Value} (hv : coerceFor (fieldNamed? fields name) (Record.field r name) = .ok v) :
    v.isScalar = true := by
  cases hname : fieldNamed? fields name with
  | none =>
      rw [hname] at hv
      cases hv
      exact h.field hname
  | some f =>
      rw [hname] at hv
      rcases Field.coerce_holds hv with rfl | hfits
      · rfl
      · generalize f.kind = kind at hfits
        cases hfits <;> rfl

namespace Predicate

/-- Whether two predicates say the same of every record. -/
def Alike (fields : List Field) (p p' : Predicate) : Prop :=
  ∀ r : Record, r.Scalar fields → p.accepts r = p'.accepts r

variable {fields : List Field} {p p' : Predicate} {ps ps' : List Predicate}

theorem Alike.refl (fields : List Field) (p : Predicate) : p.Alike fields p := fun _ _ => rfl

theorem alike_group (logic : Logic) (h : List.Forall₂ (Alike fields) ps ps') :
    (group logic ps).Alike fields (group logic ps') := by
  intro r hr
  cases logic with
  | all =>
      show acceptsAll r ps = acceptsAll r ps'
      induction h with
      | nil => rfl
      | cons hp _ ih => rw [acceptsAll, acceptsAll, hp r hr, ih]
  | any =>
      show acceptsAny r ps = acceptsAny r ps'
      induction h with
      | nil => rfl
      | cons hp _ ih => rw [acceptsAny, acceptsAny, hp r hr, ih]

theorem alike_test {name : String} {o : Operator} {c c' : Value}
    (h : c' = c ∨ o.isTextual = false ∧ c'.reread = c.reread) (fold : Bool) :
    (test name (fieldNamed? fields name) o c' fold).Alike fields
      (test name (fieldNamed? fields name) o c fold) := by
  rcases h with rfl | ⟨ho, hsame⟩
  · exact .refl fields _
  · intro r hr
    rw [accepts, accepts]
    cases hv : coerceFor (fieldNamed? fields name) (Record.field r name) with
    | error fault => rfl
    | ok v => exact Operator.holds_of_reread_eq ho (isScalar_coerceFor hr hv) hsame fold

/-- What comes of compiling, up to what is accepted. -/
def CompiledAlike (fields : List Field) (compiled compiled' : Except Fault Predicate) : Prop :=
  ∀ p, compiled = .ok p → ∃ p', compiled' = .ok p' ∧ p'.Alike fields p

variable {s : FilterScope} {t : Test} {f : Filter}

theorem ofTest_reread (h : t.Steady s.fields) :
    CompiledAlike s.fields (ofTest s t) (ofTest s t.reread) := by
  intro p hp
  rw [ofTest] at hp
  cases ho : t.operator with
  | none =>
      rw [ho] at hp
      cases hp
  | some o =>
      rw [ho] at hp
      dsimp only at hp
      split at hp
      · next hknown =>
          obtain ⟨c, hc, hp⟩ := Outcome.bind_eq_ok.mp hp
          cases hp
          obtain ⟨c', hc', hsame⟩ := Test.condition_reread h ho hc
          refine ⟨_, ?_, alike_test hsame _⟩
          have hfold : t.reread.folds = t.folds := rfl
          rw [ofTest, show t.reread.operator = some o from ho]
          dsimp only
          rw [if_pos hknown]
          show (t.reread.condition (fieldNamed? s.fields t.fieldName)).bind _ = _
          rw [hc']
          rfl
      · cases hp

/-- Whether two filters are compiled alike. -/
def SameMeaning (s : FilterScope) (f f' : Filter) : Prop :=
  CompiledAlike s.fields (ofFilter s f).result (ofFilter s f').result

theorem ofMembers_alike {ms ms' : List (Option Filter)}
    (h : List.Forall₂ (Option.Rel (SameMeaning s)) ms ms') (limit : Nat)
    {ps : List Predicate} (hps : (ofMembers s limit ms).result = .ok ps) :
    ∃ ps', (ofMembers s limit ms').result = .ok ps' ∧ List.Forall₂ (Alike s.fields) ps' ps := by
  -- Missing members count for the limit on both sides, so it is reached at the same member.
  induction h generalizing limit ps with
  | nil =>
      cases hps
      exact ⟨[], rfl, .nil⟩
  | cons hm _ ih =>
      cases hm with
      | none =>
          rw [ofMembers] at hps
          rw [ofMembers]
          split at hps
          · next hlimit =>
              cases hps
              exact ⟨[], by rw [if_pos hlimit]; rfl, .nil⟩
          · next hlimit =>
              rw [if_neg hlimit]
              exact ih (limit - 1) hps
      | some hf =>
          rw [ofMembers] at hps
          rw [ofMembers]
          split at hps
          · next hlimit =>
              cases hps
              exact ⟨[], by rw [if_pos hlimit]; rfl, .nil⟩
          · next hlimit =>
              rw [Traced.result_bind] at hps
              obtain ⟨p, hp, hps⟩ := Outcome.bind_eq_ok.mp hps
              rw [Traced.result_bind] at hps
              obtain ⟨rest, hrest, hps⟩ := Outcome.bind_eq_ok.mp hps
              cases hps
              obtain ⟨p', hp', halike⟩ := hf p hp
              obtain ⟨rest', hrest', hforall⟩ := ih (limit - 1) hrest
              refine ⟨p' :: rest', ?_, .cons halike hforall⟩
              rw [if_neg hlimit, Traced.result_bind, hp']
              show (Traced.result _) = _
              rw [Traced.result_bind, hrest']
              rfl

theorem result_ofFilter_group (t : Test) (logic : Logic) {ms : List (Option Filter)} (hne : ms ≠ []) :
    (ofFilter s (.node t logic ms)).result =
      (ofMembers s (FilterScope.limit s ms.length) ms).result.map (group logic) := by
  rw [ofFilter, if_neg (by simpa using hne)]
  by_cases hlimit : FilterScope.limit s ms.length < ms.length
  · simp only [hlimit, if_true, Traced.result_bind, Traced.result_note, Except.bind,
      Traced.result_pure]
    cases (ofMembers s (FilterScope.limit s ms.length) ms).result <;> rfl
  · simp only [hlimit, if_false, Traced.result_bind, Traced.result_pure]
    cases (ofMembers s (FilterScope.limit s ms.length) ms).result <;> rfl

/-- Groups of members that are compiled alike are compiled alike. -/
theorem sameMeaning_group (t t' : Test) (logic : Logic) {ms ms' : List (Option Filter)} (hne : ms ≠ [])
    (h : List.Forall₂ (Option.Rel (SameMeaning s)) ms ms') :
    SameMeaning s (.node t logic ms) (.node t' logic ms') := by
  intro p hp
  have hlength : ms.length = ms'.length := h.length_eq
  have hne' : ms' ≠ [] := fun hnil => hne (List.length_eq_zero_iff.mp (by rw [hlength, hnil]; rfl))
  rw [result_ofFilter_group t logic hne] at hp
  obtain ⟨ps, hps, rfl⟩ := map_eq_ok hp
  obtain ⟨ps', hps', hforall⟩ := ofMembers_alike h _ hps
  refine ⟨group logic ps', ?_, alike_group logic hforall⟩
  rw [result_ofFilter_group t' logic hne', ← hlength, hps']
  rfl

theorem SameMeaning.refl (s : FilterScope) (f : Filter) : SameMeaning s f f := fun p hp =>
  ⟨p, hp, .refl s.fields p⟩

/-- A filter of steady tests that is read back is compiled to a predicate that accepts the same
records. -/
theorem sameMeaning_reread (h : f.AllTests (Test.Steady s.fields)) :
    SameMeaning s f f.tidied.reread := by
  induction h with
  | @leaf t logic ht => exact ofTest_reread ht
  | @group t logic ms hne _ ih =>
      rw [Filter.tidied_group t logic hne, Filter.group, Filter.reread, Filter.rereadMembers_eq_map,
        List.map_map]
      refine sameMeaning_group t _ logic hne (List.forall₂_map_right_iff.mpr ?_)
      refine List.forall₂_same.mpr fun m hm => ?_
      cases m with
      | none => exact .none
      | some f => exact .some (ih f hm)

end Predicate

end Rowgate
