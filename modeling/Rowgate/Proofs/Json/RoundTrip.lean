import Rowgate.Proofs.Encoding.Utf8
import Rowgate.Proofs.Json.Acceptance
import Rowgate.Proofs.Value.Portable

/-!
# JSON that is read back

What `Json.write` writes is in the grammar, without blanks, and so it is read. A text stands between
quotes as it is written (`quoted_of_whole`), and an integer and the plain digits of a decimal are
numbers of the grammar. From there it passes from the items of a list to the list and from the
entries of a dictionary to the dictionary (`readBack_of_portable`). The writer counts how deep values
lie inside each other and gives up long before the reader does, so `read_write` needs the depth for
the writer only.
-/

namespace Rowgate

/-! ## Texts -/

namespace Text

theorem hexValue?_hexDigits : ∀ k < 16, hexValue? (hexDigits.getD k '0') = some k := by decide

theorem hex_four (n : Nat) : hex 4 n = [hexDigits.getD (n / 16 / 16 / 16 % 16) '0',
    hexDigits.getD (n / 16 / 16 % 16) '0', hexDigits.getD (n / 16 % 16) '0',
    hexDigits.getD (n % 16) '0'] := rfl

theorem codeOf_of_not_isHalf {c : Char} (h : isHalf c = false) : codeOf c = c.toNat := by
  rw [codeOf, h, if_neg Bool.false_ne_true]

theorem charOf_toNat (c : Char) : charOf c.toNat = c := by
  have hvalid : c.toNat.isValidChar := c.valid
  rw [charOf, if_pos hvalid]
  exact Char.ofNat_toNat c

end Text

namespace Json

theorem code?_hex {n : Nat} (h : n < 65536) :
    code? (Text.hexDigits.getD (n / 16 / 16 / 16 % 16) '0')
      (Text.hexDigits.getD (n / 16 / 16 % 16) '0') (Text.hexDigits.getD (n / 16 % 16) '0')
      (Text.hexDigits.getD (n % 16) '0') = some n := by
  have hdigit : ∀ k, Text.hexValue? (Text.hexDigits.getD (k % 16) '0') = some (k % 16) :=
    fun k => Text.hexValue?_hexDigits _ (Nat.mod_lt _ (by omega))
  rw [code?, hdigit, hdigit, hdigit, hdigit]
  show some _ = some n
  congr 1
  omega

/-- A character may stand between quotes as it is written. -/
theorem quoted_stringChar {c : Char} (hc : Text.isHalf c = false) {written text : List Char}
    (h : Quoted written text) : Quoted (stringChar c ++ written) (c :: text) := by
  rw [stringChar]
  split
  · next heq => rw [heq]; exact .short rfl h
  split
  · next heq => rw [heq]; exact .short rfl h
  split
  · next heq => rw [heq]; exact .short rfl h
  split
  · next heq => rw [heq]; exact .short rfl h
  split
  · next heq => rw [heq]; exact .short rfl h
  split
  · next heq => rw [heq]; exact .short rfl h
  split
  · next heq => rw [heq]; exact .short rfl h
  rw [hc, Bool.or_false, Text.codeOf_of_not_isHalf hc]
  split
  · next hcontrol =>
      rw [decide_eq_true_eq] at hcontrol
      have hhigh : Text.isHighSurrogate c.toNat ≠ true := by
        rw [Text.isHighSurrogate, Ne, Bool.and_eq_true, decide_eq_true_eq]
        omega
      have hcode := Quoted.code (code?_hex (by omega : c.toNat < 65536))
        (fun high => absurd high hhigh) h
      rw [Text.charOf_toNat] at hcode
      exact hcode
  · next hquote hstroke _ _ _ _ _ hcontrol => exact .plain hquote hstroke (by simpa using hcontrol) h

theorem quoted_of_whole {cs : List Char} (h : Text.Whole cs) : Quoted (cs.flatMap stringChar) cs := by
  induction cs with
  | nil => exact .nil
  | cons c cs ih =>
      rw [List.flatMap_cons]
      exact quoted_stringChar (h c List.mem_cons_self)
        (ih fun d hd => h d (List.mem_cons_of_mem _ hd))

theorem isHalf_hexDigits : ∀ k < 16, Text.isHalf (Text.hexDigits.getD k '0') = false := by decide

/-- Escapes write the halves of surrogate pairs as well. -/
theorem whole_stringChar (c : Char) : Text.Whole (stringChar c) := by
  have hhex : ∀ k, Text.isHalf (Text.hexDigits.getD (k % 16) '0') = false :=
    fun k => isHalf_hexDigits _ (Nat.mod_lt _ (by omega))
  rw [stringChar]
  repeat' split
  all_goals first
    | decide
    | next hescape =>
        rw [Bool.not_eq_true, Bool.or_eq_false_iff] at hescape
        exact List.forall_mem_singleton.mpr hescape.2
    | skip
  simp only [Text.whole_cons, Text.hex_four, hhex]
  decide

theorem whole_string (cs : List Char) : Text.Whole (string cs) := by
  intro c hc
  rw [string, List.mem_cons, List.mem_append, List.mem_singleton] at hc
  rcases hc with rfl | hc | rfl
  · decide
  · obtain ⟨d, _, hd⟩ := List.mem_flatMap.mp hc
    exact whole_stringChar d c hd
  · decide

/-! ## Numbers -/

theorem zero_or_head_digitsOf (n : Nat) :
    digitsOf n = ['0'] ∨ digitsOf n ≠ [] ∧ (digitsOf n).head? ≠ some '0' := by
  by_cases h : n = 0
  · exact Or.inl (by rw [h]; rfl)
  · exact Or.inr ⟨digitsOf_ne_nil n, head_digitsOf h⟩

theorem signedDigits_eq (i : Int) :
    signedDigits i = Decimal.sign (decide (i < 0)) ++ digitsOf i.natAbs := by
  rw [signedDigits, Decimal.sign]
  by_cases h : i < 0
  · rw [if_pos h, if_pos (decide_eq_true h), List.singleton_append]
  · rw [if_neg h, if_neg (by simpa using h), List.nil_append]

theorem whole_of_isDigit {ds : List Char} (h : ∀ d ∈ ds, d.isDigit = true) : Text.Whole ds := by
  intro d hd
  have := isDigit_iff.mp (h d hd)
  rw [← Bool.not_eq_true, Text.isHalf_iff]
  omega

theorem areDigits_nil : ∀ d ∈ ([] : List Char), d.isDigit = true := List.forall_mem_nil _

/-- An integer as a number of the grammar. -/
def Numeral.ofInt (i : Int) : Numeral where
  negative := decide (i < 0)
  whole := digitsOf i.natAbs
  fraction := []
  power := none
  areWhole := fun _ => isDigit_of_mem_digitsOf
  start := zero_or_head_digitsOf i.natAbs
  areFraction := areDigits_nil

theorem Numeral.text_ofInt (i : Int) : (ofInt i).text = signedDigits i := by
  show Decimal.sign (decide (i < 0)) ++ (digitsOf i.natAbs ++ []) = signedDigits i
  rw [signedDigits_eq, List.append_nil]

theorem Numeral.value_ofInt (i : Int) : (ofInt i).value = .int i := by
  show Value.int (if decide (i < 0) = true then -(ofDigits (digitsOf i.natAbs) : Int)
    else ofDigits (digitsOf i.natAbs)) = .int i
  rw [ofDigits_digitsOf]
  congr 1
  split
  · next hi =>
      rw [Int.ofNat_natAbs_of_nonpos (le_of_lt (of_decide_eq_true hi)), Int.neg_neg]
  · next hi =>
      rw [decide_eq_true_eq] at hi
      exact Int.natAbs_of_nonneg (by omega)

section Decimals

variable {n : Bool} {c : Nat} {e : Int}

/-- The plain digits of a decimal that is no integer as a number of the grammar. -/
theorem exists_numeral_of_decimal (n : Bool) (c : Nat) (he : e < 0) :
    ∃ m : Numeral, m.text = Decimal.plainDigits n c e ∧ m.value = .decimal (.finite n c e) ∧
      (Decimal.inRange c e = true → m.Readable) := by
  obtain ⟨whole, fraction, heq, hwhole, hfraction, hstart, hne, hvalue, hlength⟩ :=
    Decimal.withPoint_eq c he
  obtain ⟨d, ds, rfl⟩ := List.exists_cons_of_ne_nil hne
  let m : Numeral := ⟨n, whole, d :: ds, none, hwhole, hstart, hfraction⟩
  have hcoefficient : m.coefficient = c := hvalue
  have hexponent : m.exponent = e := by
    show (0 : Int) - ((d :: ds).length : Int) = e
    omega
  refine ⟨m, ?_, ?_, ?_⟩
  · show Decimal.sign n ++ (whole ++ ('.' :: d :: ds ++ [])) = _
    rw [List.append_nil, Decimal.plainDigits, heq]
  · show Value.decimal (.finite n m.coefficient m.exponent) = _
    rw [hcoefficient, hexponent]
  · intro hr
    show Decimal.inRange m.coefficient m.exponent = true
    rwa [hcoefficient, hexponent]

/-- An integral decimal has no more digits than the number of its digits up to the point tells. -/
theorem digitCount_truncate (h : (Decimal.finite n c e).isIntegral = true) (hc : c ≠ 0) :
    (digitCount c : Int) + e ≤ digitCount (Decimal.truncate n c e).natAbs := by
  by_cases hplace : (digitCount c : Int) + e ≤ 0
  · omega
  · obtain ⟨k, hk⟩ : ∃ k : Nat, Decimal.leadingPower c e = k :=
      ⟨(Decimal.leadingPower c e).toNat, by rw [Decimal.leadingPower]; omega⟩
    have hle := Decimal.pow_leadingPower_le hc e
    have habs : ((Decimal.truncate n c e).natAbs : ℚ) = Decimal.magnitude c e := by
      rw [Nat.cast_natAbs, Int.cast_abs, Decimal.truncate_of_isIntegral h, Decimal.signed]
      split
      · rw [abs_neg, abs_of_nonneg (Decimal.magnitude_nonneg c e)]
      · rw [abs_of_nonneg (Decimal.magnitude_nonneg c e)]
    rw [hk, zpow_natCast, ← habs] at hle
    have hpow : 10 ^ k ≤ (Decimal.truncate n c e).natAbs := by exact_mod_cast hle
    have := le_digitCount hpow
    rw [Decimal.leadingPower] at hk
    omega

theorem decimalText_of_isIntegral (h : (Decimal.finite n c e).isIntegral = true)
    (hd : digitCount (Decimal.truncate n c e).natAbs ≤ digitLimit) :
    decimalText (.finite n c e) = .ok (some (signedDigits (Decimal.truncate n c e))) := by
  rw [decimalText, if_pos h, if_neg, integerText, if_pos hd]
  · show Except.ok (some (String.ofList _).toList) = _
    rw [String.toList_ofList]
  · rintro ⟨hc, hlt⟩
    have := digitCount_truncate h hc
    omega

end Decimals

theorem Numeral.whole_text (n : Numeral) : Text.Whole n.text := by
  rw [text, unsigned, Text.whole_append, Text.whole_append, Text.whole_append]
  refine ⟨?_, whole_of_isDigit n.areWhole, ?_, ?_⟩
  · cases n.negative with
    | false => decide
    | true => decide
  · cases hfraction : n.fraction with
    | nil => exact List.forall_mem_nil _
    | cons d ds => exact Text.whole_cons.mpr ⟨rfl, whole_of_isDigit (hfraction ▸ n.areFraction)⟩
  · rw [powerText]
    cases n.power with
    | none => exact List.forall_mem_nil _
    | some p =>
        refine Text.whole_cons.mpr ⟨?_, Text.whole_append.mpr ⟨?_, whole_of_isDigit p.areDigits⟩⟩
        · rcases p.isMark with h | h <;> rw [h] <;> rfl
        · rcases p.isSign with h | h | h <;> rw [h] <;> decide

/-! ## Values without other values in them -/

/-- A value is written as a text, and this text stands for another value, within the limits of a
reader that goes as deep as the value is. -/
structure ReadBack (v : Value) (text : List Char) (w : Value) : Prop where
  written : render v = .ok text
  whole : Text.Whole text
  spells : ∀ {depth : Nat}, v.depth ≤ depth → Spells Numeral.Readable depth text w

theorem readBack_of_numeral {v : Value} {n : Numeral} (hv : render v = .ok n.text)
    (hn : n.Readable) : ReadBack v n.text n.value := ⟨hv, n.whole_text, fun _ => .number n hn⟩

/-- What is written in the digits of an integer stands for that integer. -/
theorem readBack_of_signedDigits {v : Value} {i : Int} (hv : render v = .ok (signedDigits i))
    (h : digitCount i.natAbs ≤ digitLimit) : ReadBack v (signedDigits i) (.int i) := by
  rw [← Numeral.text_ofInt] at hv ⊢
  rw [← Numeral.value_ofInt i]
  exact readBack_of_numeral hv h

theorem readBack_decimal {n : Bool} {c : Nat} {e : Int} (hr : Decimal.inRange c e = true)
    (hd : (Decimal.finite n c e).isIntegral = true →
      digitCount (Decimal.truncate n c e).natAbs ≤ digitLimit) :
    ∃ text, ReadBack (.decimal (.finite n c e)) text (Decimal.finite n c e).reread := by
  by_cases h : (Decimal.finite n c e).isIntegral = true
  · refine ⟨signedDigits (Decimal.truncate n c e), ?_⟩
    rw [Decimal.reread, if_pos h]
    refine readBack_of_signedDigits ?_ (hd h)
    rw [render, decimalText_of_isIntegral h (hd h)]
    rfl
  · obtain ⟨-, he⟩ := Decimal.of_not_isIntegral (Bool.eq_false_iff.mpr h)
    obtain ⟨m, htext, hvalue, hreadable⟩ := exists_numeral_of_decimal n c he
    have hv : render (.decimal (.finite n c e)) = .ok m.text := by
      rw [render, decimalText, if_neg h, htext]
      rfl
    have hback := readBack_of_numeral hv (hreadable hr)
    rw [hvalue] at hback
    rw [Decimal.reread, if_neg h]
    exact ⟨m.text, hback⟩

/-! ## Lists and dictionaries -/

/-- An item without blanks. -/
def Item.plain (text : List Char) (v : Value) : Item :=
  ⟨[], text, [], v, blank_nil, blank_nil⟩

theorem Item.written_plain (text : List Char) (v : Value) : (plain text v).written = text :=
  List.append_nil text

/-- A member without blanks. -/
def Member.plain (name text : List Char) (hname : Text.Whole name) (v : Value) : Member :=
  ⟨⟨[], name.flatMap stringChar, [], name, blank_nil, quoted_of_whole hname, blank_nil⟩,
    .plain text v⟩

theorem Member.written_plain {name : List Char} (text : List Char) (hname : Text.Whole name)
    (v : Value) : (plain name text hname v).written = string name ++ ':' :: text := by
  rw [written, plain, Item.written_plain]
  simp [Label.written, string]

/-- What comes after an item or an entry: a comma and the rest, unless it is the last one. -/
def afterFirst (last : Bool) (rest : List Char) : List Char := if last then [] else ',' :: rest

theorem joined_eq (text : List Char) (texts : List (List Char)) :
    joined (text :: texts) = text ++ afterFirst texts.isEmpty (joined texts) := by
  cases texts with
  | nil => exact (List.append_nil text).symm
  | cons t ts => rfl

theorem renderItems_cons (v : Value) (vs : List Value) :
    renderItems (v :: vs) = (render v).bind fun text =>
      (renderItems vs).map fun rest => text ++ afterFirst vs.isEmpty rest := by
  rw [renderItems.eq_def]
  dsimp only
  cases render v with
  | error fault => rfl
  | ok text =>
      cases vs with
      | nil => exact congrArg Except.ok (List.append_nil text).symm
      | cons v' vs => rfl

theorem renderEntries_cons (k : String) (v : Value) (es : List (String × Value)) :
    renderEntries ((k, v) :: es) = (render v).bind fun text =>
      (renderEntries es).map fun rest =>
        string k.toList ++ ':' :: (text ++ afterFirst es.isEmpty rest) := by
  rw [renderEntries.eq_def]
  dsimp only
  cases render v with
  | error fault => rfl
  | ok text =>
      cases es with
      | nil =>
          show Except.ok _ = Except.ok (string k.toList ++ ':' :: (text ++ []))
          rw [List.append_nil]
      | cons e es => rfl

theorem whole_joined {texts : List (List Char)} (h : ∀ text ∈ texts, Text.Whole text) :
    Text.Whole (joined texts) := by
  induction texts with
  | nil => exact List.forall_mem_nil _
  | cons text texts ih =>
      obtain ⟨htext, htexts⟩ := List.forall_mem_cons.mp h
      rw [joined_eq, Text.whole_append]
      refine ⟨htext, ?_⟩
      cases texts with
      | nil => exact List.forall_mem_nil _
      | cons t ts => exact Text.whole_cons.mpr ⟨rfl, ih htexts⟩

section Collections

variable {f : Value → Value}

/-- What is written of values is items that stand for what the values are read back as. -/
theorem exists_items {vs : List Value} (h : ∀ v ∈ vs, ∃ text, ReadBack v text (f v)) :
    ∃ items : List Item, items.map Item.value = vs.map f ∧
      renderItems vs = .ok (joined (items.map Item.written)) ∧
      (∀ i ∈ items, Text.Whole i.written) ∧
      ∀ depth, Value.itemsDepth vs ≤ depth →
        ∀ i ∈ items, Spells Numeral.Readable depth i.text i.value := by
  induction vs with
  | nil => exact ⟨[], rfl, rfl, List.forall_mem_nil _, fun _ _ => List.forall_mem_nil _⟩
  | cons v vs ih =>
      obtain ⟨text, hv⟩ := h v List.mem_cons_self
      obtain ⟨items, hvalues, hwritten, hwhole, hspells⟩ :=
        ih fun w hw => h w (List.mem_cons_of_mem v hw)
      have hempty : (items.map Item.written).isEmpty = vs.isEmpty := by
        have hsame := congrArg List.isEmpty hvalues
        rw [List.isEmpty_map, List.isEmpty_map] at hsame
        rw [List.isEmpty_map, hsame]
      refine ⟨.plain text (f v) :: items, ?_, ?_, ?_, fun depth hdepth => ?_⟩
      · rw [List.map_cons, List.map_cons, hvalues]
        rfl
      · rw [renderItems_cons, hv.written, hwritten, List.map_cons, joined_eq, hempty,
          Item.written_plain]
        rfl
      · rw [List.forall_mem_cons, Item.written_plain]
        exact ⟨hv.whole, hwhole⟩
      · rw [Value.itemsDepth, Nat.max_le] at hdepth
        exact List.forall_mem_cons.mpr ⟨hv.spells hdepth.1, hspells depth hdepth.2⟩

/-- A list is read back if its items are. -/
theorem readBack_list {vs : List Value} (h : ∀ v ∈ vs, ∃ text, ReadBack v text (f v)) :
    ∃ text, ReadBack (.list vs) text (.list (vs.map f)) := by
  obtain ⟨items, hvalues, hwritten, hwhole, hspells⟩ := exists_items h
  refine ⟨'[' :: (joined (items.map Item.written) ++ [']']), ?_, ?_, ?_⟩
  · rw [render, hwritten]
    rfl
  · have hjoined := whole_joined (List.forall_mem_map.mpr hwhole)
    exact Text.whole_cons.mpr ⟨rfl, Text.whole_append.mpr ⟨hjoined, by decide⟩⟩
  · intro depth hdepth
    rw [Value.depth] at hdepth
    obtain ⟨depth, rfl⟩ : ∃ k, depth = k + 1 := ⟨depth - 1, by omega⟩
    rw [← hvalues]
    by_cases hne : items = []
    · rw [hne]
      exact .noItems blank_nil
    · exact .items hne (hspells depth (by omega))

/-- What is written of entries is members that stand for what the entries are read back as. -/
theorem exists_members {es : List (String × Value)} (htexts : ∀ e ∈ es, Text.Whole e.1.toList)
    (h : ∀ e ∈ es, ∃ text, ReadBack e.2 text (f e.2)) :
    ∃ members : List Member, members.map Member.entry = es.map (fun e => (e.1, f e.2)) ∧
      renderEntries es = .ok (joined (members.map Member.written)) ∧
      (∀ m ∈ members, Text.Whole m.written) ∧
      ∀ depth, Value.entriesDepth es ≤ depth →
        ∀ m ∈ members, Spells Numeral.Readable depth m.item.text m.item.value := by
  induction es with
  | nil => exact ⟨[], rfl, rfl, List.forall_mem_nil _, fun _ _ => List.forall_mem_nil _⟩
  | cons e es ih =>
      obtain ⟨k, v⟩ := e
      obtain ⟨hk, htexts⟩ := List.forall_mem_cons.mp htexts
      obtain ⟨text, hv⟩ := h (k, v) List.mem_cons_self
      obtain ⟨members, hentries, hwritten, hwhole, hspells⟩ :=
        ih htexts fun e he => h e (List.mem_cons_of_mem _ he)
      have hempty : (members.map Member.written).isEmpty = es.isEmpty := by
        have hsame := congrArg List.isEmpty hentries
        rw [List.isEmpty_map, List.isEmpty_map] at hsame
        rw [List.isEmpty_map, hsame]
      refine ⟨.plain k.toList text hk (f v) :: members, ?_, ?_, ?_, fun depth hdepth => ?_⟩
      · have hentry : (Member.plain k.toList text hk (f v)).entry = (k, f v) :=
          congrArg (·, f v) String.ofList_toList
        rw [List.map_cons, List.map_cons, hentries, hentry]
      · rw [renderEntries_cons, hv.written, hwritten, List.map_cons, joined_eq, hempty,
          Member.written_plain, List.append_assoc]
        rfl
      · rw [List.forall_mem_cons, Member.written_plain, Text.whole_append, Text.whole_cons]
        exact ⟨⟨whole_string _, rfl, hv.whole⟩, hwhole⟩
      · rw [Value.entriesDepth, Nat.max_le] at hdepth
        exact List.forall_mem_cons.mpr ⟨hv.spells hdepth.1, hspells depth hdepth.2⟩

/-- A dictionary is read back if its values are. -/
theorem readBack_dict {es : List (String × Value)} (hnames : (Record.names es).Nodup)
    (htexts : ∀ e ∈ es, Text.Whole e.1.toList)
    (h : ∀ e ∈ es, ∃ text, ReadBack e.2 text (f e.2)) :
    ∃ text, ReadBack (.dict es) text (.dict (es.map fun e => (e.1, f e.2))) := by
  obtain ⟨members, hentries, hwritten, hwhole, hspells⟩ := exists_members htexts h
  refine ⟨'\x7b' :: (joined (members.map Member.written) ++ ['\x7d']), ?_, ?_, ?_⟩
  · rw [render, hwritten]
    rfl
  · have hjoined := whole_joined (List.forall_mem_map.mpr hwhole)
    exact Text.whole_cons.mpr ⟨rfl, Text.whole_append.mpr ⟨hjoined, by decide⟩⟩
  · intro depth hdepth
    rw [Value.depth] at hdepth
    obtain ⟨depth, rfl⟩ : ∃ k, depth = k + 1 := ⟨depth - 1, by omega⟩
    have hsame : (Record.names (es.map fun e => (e.1, f e.2))).Nodup := by
      rwa [Record.names, List.map_map]
    rw [← Record.ofEntries_of_nodup hsame, ← hentries]
    by_cases hne : members = []
    · rw [hne]
      exact .noMembers blank_nil
    · exact .members hne (hspells depth (by omega))

end Collections

/-! ## All values -/

theorem readBack_of_portable {v : Value} (h : v.Portable) : ∃ text, ReadBack v text v.reread := by
  induction h with
  | null => exact ⟨_, rfl, by decide, fun _ => .null⟩
  | bool b =>
      cases b with
      | false => exact ⟨_, rfl, by decide, fun _ => .false⟩
      | true => exact ⟨_, rfl, by decide, fun _ => .true⟩
  | int h => exact ⟨_, readBack_of_signedDigits rfl h⟩
  | decimal hr hd => exact readBack_decimal hr hd
  | @str s h =>
      refine ⟨_, rfl, whole_string _, fun {depth} _ => ?_⟩
      have hspells : Spells Numeral.Readable depth (string s.toList)
          (.str (String.ofList s.toList)) := .string (quoted_of_whole h)
      rwa [String.ofList_toList] at hspells
  | list _ ih =>
      rw [Value.reread, Value.rereadItems_eq_map]
      exact readBack_list ih
  | dict hnames htexts _ ih =>
      rw [Value.reread, Value.rereadEntries_eq_map]
      exact readBack_dict hnames htexts ih

theorem checkText_of_whole {s : String} (h : Text.Whole s.toList) : checkText s = .ok () := by
  rw [checkText, Text.halves?_of_whole h]

theorem checkItems_eq_ok_iff {depth : Nat} {vs : List Value} :
    checkItems depth vs = .ok () ↔ ∀ v ∈ vs, check depth v = .ok () := by
  induction vs with
  | nil => exact ⟨fun _ _ h => (nomatch h), fun _ => rfl⟩
  | cons v vs ih =>
      rw [checkItems, List.forall_mem_cons, ← ih]
      cases h : check depth v with
      | error fault => exact ⟨fun h => (nomatch h), fun h => (nomatch h.1)⟩
      | ok => exact ⟨fun h => ⟨rfl, h⟩, fun h => h.2⟩

theorem checkEntries_eq_ok_iff {depth : Nat} {es : List (String × Value)}
    (htexts : ∀ e ∈ es, Text.Whole e.1.toList) :
    checkEntries depth es = .ok () ↔ ∀ e ∈ es, check depth e.2 = .ok () := by
  induction es with
  | nil => exact ⟨fun _ _ h => (nomatch h), fun _ => rfl⟩
  | cons e es ih =>
      rw [checkEntries, checkText_of_whole (htexts e List.mem_cons_self), List.forall_mem_cons,
        ← ih fun x hx => htexts x (List.mem_cons_of_mem _ hx)]
      cases h : check depth e.2 with
      | error fault => exact ⟨fun h => (nomatch h), fun h => (nomatch h.1)⟩
      | ok => exact ⟨fun h => ⟨rfl, h⟩, fun h => h.2⟩

theorem check_zero (v : Value) : check 0 v = .ok () ↔ v.depth ≤ 0 := by
  rw [check]
  exact ⟨fun h => (nomatch h), fun h => absurd h (Nat.not_le.mpr v.depth_pos)⟩

/-- A value that travels can be sent unless it is too deep. -/
theorem check_eq_ok_iff {v : Value} (h : v.Portable) {depth : Nat} :
    check depth v = .ok () ↔ v.depth ≤ depth := by
  induction h generalizing depth with
  | list _ ih =>
      cases depth with
      | zero => exact check_zero _
      | succ depth =>
          rw [check, checkItems_eq_ok_iff, Value.depth, Nat.add_le_add_iff_right,
            Value.itemsDepth_le_iff]
          exact forall₂_congr fun v hv => ih v hv
  | dict _ htexts _ ih =>
      cases depth with
      | zero => exact check_zero _
      | succ depth =>
          rw [check, checkEntries_eq_ok_iff htexts, Value.depth, Nat.add_le_add_iff_right,
            Value.entriesDepth_le_iff]
          exact forall₂_congr fun e he => ih e he
  | str h =>
      cases depth with
      | zero => exact check_zero _
      | succ depth => exact ⟨fun _ => Nat.le_add_left 1 depth, fun _ => checkText_of_whole h⟩
  | null | bool | int | decimal =>
      cases depth with
      | zero => exact check_zero _
      | succ depth => exact ⟨fun _ => Nat.le_add_left 1 depth, fun _ => rfl⟩

/-- A value that travels but is too deep is not written. -/
theorem write_of_too_deep {v : Value} (h : v.Portable) (hdeep : depthLimit < v.depth) :
    ∃ fault, write v = .error fault := by
  obtain ⟨text, hback⟩ := readBack_of_portable h
  cases hcheck : check depthLimit v with
  | ok => exact absurd ((check_eq_ok_iff h).mp hcheck) (Nat.not_le.mpr hdeep)
  | error fault =>
      refine ⟨fault, ?_⟩
      rw [write, writeWithin, hback.written]
      show (check depthLimit v).bind _ = _
      rw [hcheck]
      rfl

theorem ReadBack.spellsAll {v w : Value} {text : List Char} (h : ReadBack v text w) {depth : Nat}
    (hdepth : v.depth ≤ depth) : SpellsAll Numeral.Readable depth text w :=
  ⟨.plain text w, (Item.written_plain text w).symm, rfl, h.spells hdepth⟩

theorem ReadBack.read_text {v w : Value} {text : List Char} (h : ReadBack v text w)
    (hdepth : v.depth ≤ nestingLimit) : Json.read text = .ok w := by
  have hspells := h.spellsAll hdepth
  exact (read_iff_isJson hspells.not_hindered).mpr hspells.isJson

/-- What is written of a value that travels is read as an equal value. -/
theorem read_write {v : Value} (h : v.Portable) (hdepth : v.depth ≤ depthLimit) :
    ∃ text, write v = .ok text ∧ Text.Whole text.toList ∧ read text.toList = .ok v.reread := by
  obtain ⟨text, hback⟩ := readBack_of_portable h
  refine ⟨String.ofList text, ?_, ?_, ?_⟩
  · rw [write, writeWithin, hback.written]
    show (check depthLimit v).bind _ = _
    rw [(check_eq_ok_iff h).mpr hdepth]
    rfl
  · rw [String.toList_ofList]
    exact hback.whole
  · rw [String.toList_ofList]
    exact hback.read_text (hdepth.trans (by decide))

end Rowgate.Json
