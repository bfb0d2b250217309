import Rowgate.Proofs.Calendar.IsoText
import Rowgate.Proofs.Encoding.Base64
import Rowgate.Proofs.Json.Marks

/-!
# Decimals by way of marks come through

A value that is written by way of marks is written as if the encoder knew decimals itself, as long
as the stem of the marks lies in none of its texts and names (`writeMarked_eq`). A marked value
stands for the value that it was made of (`StandsFor`): it passes the same checks, and its text is
restored as the other text. Numbers have no quotes, and octets, dates and times have no lines, so
only texts and names have to be free of the stem. The number texts grow while more and more is
marked, which does not matter to what was marked before (`Restores.mono`).

What is written of a value that travels is therefore read back as an equal value
(`read_writeMarked`).
-/

namespace Rowgate

/-! ## The texts of a value -/

namespace Value

mutual

/-- The texts and names in a value. -/
def texts : Value → List String
  | .str s => [s]
  | .list items => itemsTexts items
  | .dict entries => entriesTexts entries
  | _ => []

/-- The texts and names in the items of a list. -/
def itemsTexts : List Value → List String
  | [] => []
  | v :: vs => texts v ++ itemsTexts vs

/-- The texts and names in the entries of a dictionary. -/
def entriesTexts : List (String × Value) → List String
  | [] => []
  | (k, v) :: es => k :: (texts v ++ entriesTexts es)

end

end Value

namespace Json

/-- Whether a stem lies in none of some texts. -/
def Unmarked (stem : List Char) (texts : List String) : Prop :=
  ∀ s ∈ texts, ¬ stem <:+: s.toList

instance (stem : List Char) (texts : List String) : Decidable (Unmarked stem texts) :=
  inferInstanceAs (Decidable (∀ s ∈ texts, _))

/-! ## Texts of numbers -/

theorem mem_withPoint {digits : List Char} {place : Int} {c : Char}
    (h : c ∈ Decimal.withPoint digits place) : c = '0' ∨ c = '.' ∨ c ∈ digits := by
  have hzero : ∀ n, c ∈ Decimal.zeros n → c = '0' := fun n hn => List.eq_of_mem_replicate hn
  rw [Decimal.withPoint] at h
  split at h
  · rcases List.mem_cons.mp h with rfl | h
    · exact Or.inl rfl
    rcases List.mem_cons.mp h with rfl | h
    · exact Or.inr (Or.inl rfl)
    exact (List.mem_append.mp h).imp (hzero _) Or.inr
  split at h
  · rcases List.mem_append.mp h with h | h
    · exact Or.inr (Or.inr h)
    · exact Or.inl (hzero _ h)
  · rcases List.mem_append.mp h with h | h
    · exact Or.inr (Or.inr (List.mem_of_mem_take h))
    rcases List.mem_cons.mp h with rfl | h
    · exact Or.inr (Or.inl rfl)
    · exact Or.inr (Or.inr (List.mem_of_mem_drop h))

/-- Whether a character stands in the text of a floating point number. -/
def isNumeric (c : Char) : Bool := c.isDigit || ['-', '+', '.', 'e'].contains c

theorem isNumeric_of_isDigit {c : Char} (h : c.isDigit = true) : isNumeric c = true := by
  rw [isNumeric, h, Bool.true_or]

theorem isNumeric_of_mem_withPoint {digits : List Char} {place : Int}
    (hdigits : ∀ d ∈ digits, d.isDigit = true) {c : Char}
    (h : c ∈ Decimal.withPoint digits place) : isNumeric c = true := by
  rcases mem_withPoint h with rfl | rfl | h
  · rfl
  · rfl
  · exact isNumeric_of_isDigit (hdigits c h)

theorem isNumeric_of_mem_exponentText {style : Binary64.Style} {k : Int} {c : Char}
    (h : c ∈ Binary64.exponentText style k) : isNumeric c = true := by
  rw [Binary64.exponentText] at h
  rcases List.mem_cons.mp h with rfl | h
  · rfl
  rcases List.mem_cons.mp h with h | h
  · rw [h]
    split <;> rfl
  rcases List.mem_append.mp h with h | h
  · rw [List.eq_of_mem_replicate h]
    rfl
  · exact isNumeric_of_isDigit (isDigit_of_mem_digitsOf h)

theorem isNumeric_of_mem_finiteText {style : Binary64.Style} {negative : Bool} {m : Nat} {q : Int}
    {c : Char} (h : c ∈ Binary64.finiteText style negative m q) : isNumeric c = true := by
  have hsign : c ∈ Decimal.sign negative → isNumeric c = true := by
    intro hc
    cases negative with
    | false => cases hc
    | true =>
        rw [List.mem_singleton.mp hc]
        rfl
  rw [Binary64.finiteText] at h
  split at h
  · rcases List.mem_append.mp h with h | h
    · exact hsign h
    · exact List.all_eq_true.mp (rfl : ['0', '.', '0'].all isNumeric = true) c h
  generalize Binary64.shortest m q = found at h
  obtain ⟨d, k⟩ := found
  have hdigits : ∀ x ∈ digitsOf d, x.isDigit = true := fun _ => isDigit_of_mem_digitsOf
  dsimp only at h
  rcases List.mem_append.mp h with h | h
  · exact hsign h
  split at h
  · rw [Binary64.positional] at h
    split at h
    · rcases List.mem_append.mp h with h | h
      · exact isNumeric_of_mem_withPoint hdigits h
      · exact List.all_eq_true.mp (rfl : ['.', '0'].all isNumeric = true) c h
    · exact isNumeric_of_mem_withPoint hdigits h
  · rcases List.mem_append.mp h with h | h
    · refine isNumeric_of_mem_withPoint (fun x hx => hdigits x ?_) h
      exact List.mem_reverse.mp ((List.dropWhile_sublist _).subset (List.mem_reverse.mp hx))
    · exact isNumeric_of_mem_exponentText h

theorem quote_not_mem_float (f : Binary64) : '"' ∉ float f := by
  cases f with
  | nan => decide
  | infinite n => cases n <;> decide
  | finite n m q =>
      intro h
      exact absurd (isNumeric_of_mem_finiteText h) (by decide)

theorem quote_not_mem_signedDigits (i : Int) : '"' ∉ signedDigits i := by
  intro h
  rw [signedDigits_eq] at h
  rcases List.mem_append.mp h with h | h
  · rw [Decimal.sign] at h
    split at h
    · exact absurd h (by decide)
    · cases h
  · exact absurd (isDigit_of_mem_digitsOf h) (by decide)

/-! ## Values that stand for others -/

/-- How values are written and checked, or how all items of a list or entries of a dictionary are. -/
structure Manner (α : Type) where
  isEmpty : α → Bool
  render : α → Except IntegerFault (List Char)
  check : Nat → α → Except WriteFault Unit

def values : Manner Value := ⟨fun _ => false, render, check⟩

def items : Manner (List Value) := ⟨List.isEmpty, renderItems, checkItems⟩

def entries : Manner (List (String × Value)) := ⟨List.isEmpty, renderEntries, checkEntries⟩

/-- What has marks in it stands for something without: it passes the same checks, and its text is
restored as the other text. -/
structure StandsFor {α : Type} (m : Manner α) (stem : List Char) (texts : List (List Char))
    (w v : α) : Prop where
  empty : m.isEmpty w = m.isEmpty v
  checked : ∀ depth, m.check depth w = m.check depth v
  written : ∃ encoded text, m.render w = .ok encoded ∧ m.render v = .ok text ∧
    Restores stem texts encoded text

/-- What comes of marking something after earlier number texts: the fault of writing it, or what
stands for it. -/
inductive Marked {α : Type} (m : Manner α) (stem : List Char) (texts : List (List Char)) (v : α) :
    Except IntegerFault (α × List (List Char)) → Prop
  | fault {fault : IntegerFault} (h : m.render v = .error fault) : Marked m stem texts v (.error fault)
  | stands {w : α} {texts' : List (List Char)} (hgrown : texts <+: texts')
      (h : StandsFor m stem texts' w v) : Marked m stem texts v (.ok (w, texts'))

section Marking

variable {stem : List Char} {texts : List (List Char)}

/-! ### Values without other values in them -/

/-- A value that is left as it is. -/
theorem Marked.same {v : Value} {text : List Char} (hv : render v = .ok text)
    (h : Restores stem texts text text) : Marked values stem texts v (.ok (v, texts)) :=
  .stands List.prefix_rfl ⟨rfl, fun _ => rfl, text, text, hv, hv, h⟩

theorem check_str_of_whole {cs : List Char} (h : Text.Whole cs) {v : Value}
    (hv : ∀ depth, check (depth + 1) v = .ok ()) (depth : Nat) :
    check depth (.str (String.ofList cs)) = check depth v := by
  cases depth with
  | zero => rw [check, check]
  | succ depth =>
      rw [hv, check]
      refine checkText_of_whole ?_
      rwa [String.toList_ofList]

theorem marked_decimal (hstem : IsStem stem) (d : Decimal) :
    Marked values stem texts (.decimal d) (mark stem texts (.decimal d)) := by
  rw [mark]
  cases h : decimalText d with
  | error fault =>
      refine .fault ?_
      show render (.decimal d) = _
      rw [render, h]
      rfl
  | ok text =>
      have hd : render (.decimal d) = .ok (text.getD "null".toList) := by
        rw [render, h]
        rfl
      cases text with
      | none =>
          refine .stands List.prefix_rfl ⟨rfl, fun depth => ?_, _, _, rfl, hd, .copy (by decide)⟩
          cases depth with
          | zero => rfl
          | succ depth => rfl
      | some text =>
          refine .stands (List.prefix_append _ _) ⟨rfl, ?_, _, _, rfl, hd, ?_⟩
          · exact check_str_of_whole (hstem.whole_markText _) fun _ => rfl
          · rw [String.toList_ofList]
            exact .mark hstem texts text

theorem marked_bytes (hstem : IsStem stem) (octets : List UInt8) :
    Marked values stem texts (.bytes octets) (mark stem texts (.bytes octets)) := by
  refine .stands List.prefix_rfl ⟨rfl, ?_, _, _, rfl, rfl, ?_⟩
  · exact check_str_of_whole (Base64.forall_mem_encode (by decide) (by decide)) fun _ => rfl
  · rw [String.toList_ofList]
    refine .string hstem (hstem.absent fun hline => ?_)
    exact Base64.forall_mem_encode (P := (· ≠ '_')) (by decide) (by decide) _ hline rfl

/-! ### Things that are made of others -/

theorem Restores.afterFirst (hstem : IsStem stem) {piece text rest rest' : List Char}
    (h : Restores stem texts piece text) (hrest : Restores stem texts rest rest') (last : Bool) :
    Restores stem texts (piece ++ afterFirst last rest) (text ++ afterFirst last rest') := by
  cases last with
  | true =>
      show Restores stem texts (piece ++ []) (text ++ [])
      rwa [List.append_nil, List.append_nil]
  | false => exact h.append hstem (by decide) (hrest.cons (by decide))

section Made

variable {α β γ : Type} {m : Manner α} {m' : Manner β} {m'' : Manner γ}

/-- How something is written and checked that is made of one other thing. -/
structure Wraps (m : Manner α) (m' : Manner β) (make : α → β) (wrap : List Char → List Char) :
    Prop where
  empty : ∀ w v, m'.isEmpty (make w) = m'.isEmpty (make v)
  check : ∀ {w v}, (∀ depth, m.check depth w = m.check depth v) →
    ∀ depth, m'.check depth (make w) = m'.check depth (make v)
  render : ∀ v, m'.render (make v) = (m.render v).map wrap

/-- How something is written and checked that is made of a first thing and of the rest. -/
structure Joins (m : Manner α) (m' : Manner β) (m'' : Manner γ) (make : α → β → γ)
    (join : List Char → List Char → List Char) : Prop where
  empty : ∀ w ws v vs, m''.isEmpty (make w ws) = m''.isEmpty (make v vs)
  check : ∀ {w v ws vs}, (∀ depth, m.check depth w = m.check depth v) →
    (∀ depth, m'.check depth ws = m'.check depth vs) →
    ∀ depth, m''.check depth (make w ws) = m''.check depth (make v vs)
  render : ∀ v vs, m''.render (make v vs) = (m.render v).bind fun text =>
    (m'.render vs).map fun rest => join text (afterFirst (m'.isEmpty vs) rest)

theorem Marked.wrap {make : α → β} {wrap : List Char → List Char} (hwraps : Wraps m m' make wrap)
    (hrestores : ∀ {texts piece text}, Restores stem texts piece text →
      Restores stem texts (wrap piece) (wrap text))
    {v : α} {marked : Except IntegerFault (α × List (List Char))}
    (h : Marked m stem texts v marked) :
    Marked m' stem texts (make v) (marked.map fun p => (make p.1, p.2)) := by
  cases h with
  | fault h =>
      refine .fault ?_
      rw [hwraps.render, h]
      rfl
  | stands hgrown h =>
      obtain ⟨encoded, text, hw, hv, hpiece⟩ := h.written
      refine .stands hgrown
        ⟨hwraps.empty _ _, hwraps.check h.checked, _, _, ?_, ?_, hrestores hpiece⟩
      · rw [hwraps.render, hw]
        rfl
      · rw [hwraps.render, hv]
        rfl

/-- A fault of the first thing is a fault of the whole, whatever the rest is. -/
theorem Marked.join {make : α → β → γ} {join : List Char → List Char → List Char}
    (hjoins : Joins m m' m'' make join)
    (hrestores : ∀ {texts piece text rest rest'}, Restores stem texts piece text →
      Restores stem texts rest rest' → ∀ last,
      Restores stem texts (join piece (Json.afterFirst last rest))
        (join text (Json.afterFirst last rest')))
    {v : α} {vs : β} {marked : Except IntegerFault (α × List (List Char))}
    {markRest : List (List Char) → Except IntegerFault (β × List (List Char))}
    (h : Marked m stem texts v marked) (hrest : ∀ texts, Marked m' stem texts vs (markRest texts)) :
    Marked m'' stem texts (make v vs) (marked.bind fun p =>
      (markRest p.2).bind fun q => .ok (make p.1 q.1, q.2)) := by
  cases h with
  | fault h =>
      refine .fault ?_
      rw [hjoins.render, h]
      rfl
  | @stands w texts' hgrown h =>
      obtain ⟨encoded, text, hw, hv, hfirst⟩ := h.written
      have hrest := hrest texts'
      show Marked _ _ _ _ ((markRest texts').bind _)
      generalize markRest texts' = marked at hrest
      cases hrest with
      | fault hrest =>
          refine .fault ?_
          rw [hjoins.render, hv, hrest]
          rfl
      | stands hgrown' hrest =>
          -- the rest only adds number texts, and the first thing is restored with these as well
          obtain ⟨encoded', text', hws, hvs, hlater⟩ := hrest.written
          refine .stands (hgrown.trans hgrown') ⟨hjoins.empty _ _ _ _,
            hjoins.check h.checked hrest.checked, _, _, ?_, ?_,
            hrestores (hfirst.mono hgrown') hlater (m'.isEmpty vs)⟩
          · rw [hjoins.render, hw, hws, hrest.empty]
            rfl
          · rw [hjoins.render, hv, hvs]
            rfl

end Made

/-! ### Items, entries, lists and dictionaries -/

theorem joins_items : Joins values items items List.cons (· ++ ·) where
  empty _ _ _ _ := rfl
  check {w v ws vs} hfirst hrest depth := by
    show (check depth w).bind _ = (check depth v).bind _
    rw [show check depth w = check depth v from hfirst depth]
    exact congrArg _ (funext fun _ => hrest depth)
  render v vs := by
    show renderItems (v :: vs) = _
    exact renderItems_cons v vs

theorem joins_entries (k : String) :
    Joins values entries entries (fun v es => (k, v) :: es)
      (fun text rest => string k.toList ++ ':' :: (text ++ rest)) where
  empty _ _ _ _ := rfl
  check {w v ds es} hfirst hrest depth := by
    show (checkText k).bind (fun _ => (check depth w).bind _) =
      (checkText k).bind (fun _ => (check depth v).bind _)
    rw [show check depth w = check depth v from hfirst depth]
    congr 1
    funext _
    exact congrArg _ (funext fun _ => hrest depth)
  render v es := by
    show renderEntries ((k, v) :: es) = _
    exact renderEntries_cons k v es

theorem wraps_list : Wraps items values .list (fun text => '[' :: (text ++ [']'])) where
  empty _ _ := rfl
  check {ws vs} h depth := by
    show check depth (.list ws) = check depth (.list vs)
    cases depth with
    | zero => rw [check, check]
    | succ depth => exact h depth
  render _ := rfl

theorem wraps_dict : Wraps entries values .dict (fun text => '\x7b' :: (text ++ ['\x7d'])) where
  empty _ _ := rfl
  check {ds es} h depth := by
    show check depth (.dict ds) = check depth (.dict es)
    cases depth with
    | zero => rw [check, check]
    | succ depth => exact h depth
  render _ := rfl

/-- What is enclosed by two characters that are no quotes. -/
theorem Restores.enclosed (hstem : IsStem stem) {piece text : List Char}
    (h : Restores stem texts piece text) {first last : Char} (hfirst : first ≠ '"')
    (hlast : last ≠ '"') (hline : last ≠ '_') :
    Restores stem texts (first :: (piece ++ [last])) (first :: (text ++ [last])) := by
  refine .cons hfirst (h.append hstem hline (.copy ?_))
  rw [List.mem_singleton]
  exact hlast.symm

end Marking

/-! ## All values -/

mutual

/-- Marking a value gives the fault of writing it or what stands for it. -/
theorem marked {stem : List Char} (hstem : IsStem stem) (texts : List (List Char)) (v : Value)
    (h : Unmarked stem v.texts) : Marked values stem texts v (mark stem texts v) := by
  match v with
  | .null => exact .same rfl (.copy (by decide))
  | .bool true => exact .same rfl (.copy (by decide))
  | .bool false => exact .same rfl (.copy (by decide))
  | .int i => exact .same rfl (.copy (quote_not_mem_signedDigits i))
  | .decimal d => exact marked_decimal hstem d
  | .float f => exact .same rfl (.copy (quote_not_mem_float f))
  | .str s => exact .same rfl (.string hstem (h s (List.mem_singleton_self s)))
  | .bytes octets => exact marked_bytes hstem octets
  | .date d =>
      refine .same rfl (.string hstem (hstem.absent fun hline => ?_))
      exact (Iso.mem_dateIso hline).notes.ne_line rfl
  | .dateTime t =>
      refine .same rfl (.string hstem (hstem.absent fun hline => ?_))
      exact (Iso.notes_dateTime t.date t.clock t.offset _ hline).ne_line rfl
  | .time t =>
      refine .same rfl (.string hstem (hstem.absent fun hline => ?_))
      exact (Iso.notes_time t.clock t.offset _ hline).ne_line rfl
  | .list vs =>
      exact .wrap wraps_list (fun h => h.enclosed hstem (by decide) (by decide) (by decide))
        (markedItems hstem texts vs h)
  | .dict es =>
      exact .wrap wraps_dict (fun h => h.enclosed hstem (by decide) (by decide) (by decide))
        (markedEntries hstem texts es h)

theorem markedItems {stem : List Char} (hstem : IsStem stem) (texts : List (List Char))
    (vs : List Value) (h : Unmarked stem (Value.itemsTexts vs)) :
    Marked items stem texts vs (markItems stem texts vs) := by
  match vs with
  | [] =>
      exact .stands List.prefix_rfl ⟨rfl, fun _ => rfl, [], [], rfl, rfl, .copy List.not_mem_nil⟩
  | v :: vs =>
      obtain ⟨hv, hvs⟩ := List.forall_mem_append.mp h
      exact .join joins_items (fun h hrest => h.afterFirst hstem hrest) (marked hstem texts v hv)
        fun texts => markedItems hstem texts vs hvs

theorem markedEntries {stem : List Char} (hstem : IsStem stem) (texts : List (List Char))
    (es : List (String × Value)) (h : Unmarked stem (Value.entriesTexts es)) :
    Marked entries stem texts es (markEntries stem texts es) := by
  match es with
  | [] =>
      exact .stands List.prefix_rfl ⟨rfl, fun _ => rfl, [], [], rfl, rfl, .copy List.not_mem_nil⟩
  | (k, v) :: es =>
      obtain ⟨hk, h⟩ := List.forall_mem_cons.mp h
      obtain ⟨hv, hes⟩ := List.forall_mem_append.mp h
      exact .join (joins_entries k)
        (fun h hrest last => (Restores.string hstem hk).append hstem (by decide)
          ((h.afterFirst hstem hrest last).cons (by decide)))
        (marked hstem texts v hv) fun texts => markedEntries hstem texts es hes

end

/-- A whole document is restored, also if nothing is left in it to restore. -/
theorem restore_of_restores {stem : List Char} (hstem : IsStem stem) {texts : List (List Char)}
    {encoded text : List Char} (h : Restores stem texts encoded text) :
    restore stem texts encoded = some text := by
  have hwhole : restoreFrom stem texts 0 encoded = some text := by
    have hscan := h texts List.prefix_rfl [] hstem.not_prefix_nil
    rw [List.append_nil] at hscan
    rw [hscan, restoreFrom, Option.map_some, List.append_nil]
  rw [restore]
  split
  · next hempty =>
      rw [List.isEmpty_iff] at hempty
      subst hempty
      rw [restoreFrom_nil hwhole]
  · exact hwhole

/-- What is written by way of marks is what an encoder writes that knows decimals. -/
theorem writeMarked_eq (depth : Nat) {drawn : Nat} {v : Value}
    (h : Unmarked (stem drawn) v.texts) :
    writeMarked depth drawn v = (writeWithin depth v).map some := by
  have hmarked := marked (isStem_stem drawn) [] v h
  rw [writeMarked]
  generalize mark (stem drawn) [] v = result at hmarked
  cases hmarked with
  | @fault fault hv =>
      have hv : render v = .error fault := hv
      rw [writeWithin, hv]
      rfl
  | @stands w texts hgrown hw =>
      obtain ⟨encoded, text, hencoded, htext, hrestores⟩ : ∃ encoded text,
        render w = .ok encoded ∧ render v = .ok text ∧ Restores (stem drawn) texts encoded text :=
        hw.written
      have hchecked : check depth w = check depth v := hw.checked depth
      have hrestore := restore_of_restores (isStem_stem drawn) hrestores
      dsimp only
      rw [writeWithin, writeWithin, hencoded, htext, hchecked]
      cases check depth v with
      | error fault => rfl
      | ok =>
          show Except.ok ((restore (stem drawn) texts (String.ofList encoded).toList).map _) = _
          rw [String.toList_ofList, hrestore]
          rfl

/-- A value that travels is written by way of marks as it is without them, and in its text an equal
value is read: nothing differs but integral decimals, which are read as the integers that they are.
The stem that is drawn must lie in none of the texts and names, and the value must not be deeper than
the encoder and the reader go. -/
theorem read_writeMarked {v : Value} (h : v.Portable) {drawn : Nat}
    (hdrawn : Unmarked (stem drawn) v.texts) {depth nesting : Nat} (hdepth : v.depth ≤ depth)
    (hnesting : v.depth ≤ nesting) :
    ∃ text, writeMarked depth drawn v = .ok (some text) ∧ writeWithin depth v = .ok text ∧
      readWithin nesting text.toList = .ok v.reread ∧
      (v.depth ≤ nestingLimit → read text.toList = .ok v.reread) ∧ v.reread.equals v = true := by
  obtain ⟨text, hback⟩ := readBack_of_portable h
  have hwritten : writeWithin depth v = .ok (String.ofList text) := by
    rw [writeWithin, hback.written]
    show (check depth v).bind _ = _
    rw [(check_eq_ok_iff h).mpr hdepth]
    rfl
  refine ⟨String.ofList text, ?_, hwritten, ?_, fun hlimit => ?_, h.equals_reread⟩
  · rw [writeMarked_eq depth hdrawn, hwritten]
    rfl
  · rw [String.toList_ofList]
    exact readWithin_eq_ok_iff.mpr (hback.spellsAll hnesting)
  · rw [String.toList_ofList]
    exact hback.read_text hlimit

/-- A price, a text that looks like the beginning of a mark, and an integral decimal in a list. -/
theorem read_writeMarked_price :
    ∃ text, writeMarked depthLimit 7 (.dict [("Price", .decimal (.finite false 2850 (-2))),
        ("Note", .str "__decimal_"), ("Parts", .list [.decimal (.finite true 3 2), .null])]) =
        .ok (some text) ∧
      readWithin 3 text.toList = .ok (.dict [("Price", .decimal (.finite false 2850 (-2))),
        ("Note", .str "__decimal_"), ("Parts", .list [.int (-300), .null])]) := by
  have hparts : Value.Portable (.list [.decimal (.finite true 3 2), .null]) := by
    refine .list (List.forall_mem_cons.mpr ⟨.decimal (by decide) (by decide), ?_⟩)
    exact List.forall_mem_singleton.mpr .null
  have hprice : Value.Portable (.dict [("Price", .decimal (.finite false 2850 (-2))),
      ("Note", .str "__decimal_"), ("Parts", .list [.decimal (.finite true 3 2), .null])]) := by
    refine .dict (by decide) (by decide) ?_
    refine List.forall_mem_cons.mpr ⟨.decimal (by decide) (by decide), ?_⟩
    exact List.forall_mem_cons.mpr ⟨.str (by decide), List.forall_mem_singleton.mpr hparts⟩
  obtain ⟨text, hwritten, -, hread, -, -⟩ := read_writeMarked hprice
    (by decide +kernel : Unmarked (stem 7) _) (by decide : _ ≤ depthLimit) (by decide : _ ≤ 3)
  exact ⟨text, hwritten, hread⟩

end Json

end Rowgate
