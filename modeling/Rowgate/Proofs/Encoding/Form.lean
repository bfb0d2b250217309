import Rowgate.Encoding.Form
import Rowgate.Proofs.Encoding.Utf8

/-!
# Query strings that are read back

A text in a query string consists of characters that stand for themselves, of plus signs and of
percent signs with two digits, so none of the signs that separate parts and pairs is among them
(`isQuoted_of_mem_encode`). Taking the codes for octets gives the octets of the text, and from them
the text comes back; and the pairs come back since they are split where they were joined.
-/

namespace Rowgate

/-! ## Pieces -/

namespace Text

theorem joinWith_cons_cons (sep piece next : List Char) (pieces : List (List Char)) :
    joinWith sep (piece :: next :: pieces) = piece ++ sep ++ joinWith sep (next :: pieces) := rfl

theorem splitAtChar_of_not_mem {sep : Char} {cs : List Char} (h : sep ∉ cs) :
    splitAtChar sep cs = [cs] := by
  induction cs with
  | nil => rfl
  | cons c cs ih =>
      rw [List.mem_cons, not_or] at h
      rw [splitAtChar, if_neg (Ne.symm h.1), ih h.2]

theorem splitAtChar_append {sep : Char} {piece : List Char} (h : sep ∉ piece) (rest : List Char) :
    splitAtChar sep (piece ++ sep :: rest) = piece :: splitAtChar sep rest := by
  induction piece with
  | nil => rw [List.nil_append, splitAtChar, if_pos rfl]
  | cons c piece ih =>
      rw [List.mem_cons, not_or] at h
      rw [List.cons_append, splitAtChar, if_neg (Ne.symm h.1), ih h.2]

/-- Pieces without the separator are split where they were joined. -/
theorem splitAtChar_joinWith {sep : Char} {pieces : List (List Char)} (hne : pieces ≠ [])
    (h : ∀ piece ∈ pieces, sep ∉ piece) : splitAtChar sep (joinWith [sep] pieces) = pieces := by
  induction pieces with
  | nil => exact absurd rfl hne
  | cons piece pieces ih =>
      have hpiece := h piece List.mem_cons_self
      cases pieces with
      | nil => exact splitAtChar_of_not_mem hpiece
      | cons next pieces =>
          rw [joinWith_cons_cons, List.append_assoc, List.singleton_append,
            splitAtChar_append hpiece,
            ih (List.cons_ne_nil _ _) fun p hp => h p (List.mem_cons_of_mem _ hp)]

theorem mem_joinWith {sep : List Char} {pieces : List (List Char)} {c : Char}
    (h : c ∈ joinWith sep pieces) : c ∈ sep ∨ ∃ piece ∈ pieces, c ∈ piece := by
  induction pieces with
  | nil => cases h
  | cons piece pieces ih =>
      cases pieces with
      | nil => exact Or.inr ⟨piece, List.mem_cons_self, h⟩
      | cons next pieces =>
          rw [joinWith_cons_cons, List.mem_append, List.mem_append] at h
          rcases h with (h | h) | h
          · exact Or.inr ⟨piece, List.mem_cons_self, h⟩
          · exact Or.inl h
          · exact (ih h).imp_right fun ⟨p, hp, hc⟩ => ⟨p, List.mem_cons_of_mem _ hp, hc⟩

end Text

namespace Form

/-! ## Codes -/

/-- A hexadecimal digit in capitals is read as its value, and it stands for itself. -/
theorem hexDigit_upper : ∀ k < 16,
    Text.hexValue? (Text.hexDigits.getD k '0').toUpper = some k ∧
      isPlain (Text.hexDigits.getD k '0').toUpper = true := by
  decide

theorem percent_eq (octet : Nat) : percent octet =
    ['%', (Text.hexDigits.getD (octet / 16 % 16) '0').toUpper,
      (Text.hexDigits.getD (octet % 16) '0').toUpper] := rfl

theorem runOctets_percent {octet : Nat} (h : octet < 256) (rest : List Char) :
    runOctets (percent octet ++ rest) = octet :: runOctets rest := by
  rw [percent_eq]
  simp only [List.cons_append, List.nil_append]
  rw [runOctets, (hexDigit_upper (octet / 16 % 16) (by omega)).1,
    (hexDigit_upper (octet % 16) (by omega)).1]
  have hoctet : octet / 16 % 16 * 16 + octet % 16 = octet := by omega
  simp only [hoctet]

theorem runOctets_cons {c : Char} (h : c ≠ '%') (rest : List Char) :
    runOctets (c :: rest) = c.toNat :: runOctets rest := by
  rw [runOctets]
  exact fun _ _ _ h' => absurd h' h

theorem runOctets_flatMap_percent {octets : List Nat} (h : ∀ octet ∈ octets, octet < 256)
    (rest : List Char) : runOctets (octets.flatMap percent ++ rest) = octets ++ runOctets rest := by
  induction octets with
  | nil => rfl
  | cons octet octets ih =>
      rw [List.flatMap_cons, List.append_assoc, runOctets_percent (h octet List.mem_cons_self),
        ih fun x hx => h x (List.mem_cons_of_mem _ hx), List.cons_append]

theorem lt_of_mem_encodeChar {c : Char} {octet : Nat} (h : octet ∈ Utf8.encodeChar c) :
    octet < 256 := by
  have hvalid := Utf8.toNat_lt_or c
  rw [Utf8.encodeChar] at h
  generalize c.toNat = n at hvalid h
  repeat' split at h
  all_goals
    simp only [List.mem_cons, List.not_mem_nil, or_false] at h
    omega

/-! ## Keys and values -/

theorem isPlain_bounds {c : Char} (h : isPlain c = true) : c.toNat < 128 ∧ c ≠ '%' ∧ c ≠ '+' := by
  refine ⟨?_, ?_, ?_⟩
  · simp only [isPlain, Bool.or_eq_true, Bool.and_eq_true, decide_eq_true_eq, beq_iff_eq] at h
    rcases h with ((((((h | h) | h) | rfl) | rfl) | rfl) | rfl)
    · exact Nat.lt_of_le_of_lt h.2 (by decide)
    · exact Nat.lt_of_le_of_lt h.2 (by decide)
    · exact Nat.lt_of_le_of_lt h.2 (by decide)
    · decide
    · decide
    · decide
    · decide
  · rintro rfl
    exact absurd h (by decide)
  · rintro rfl
    exact absurd h (by decide)

/-- The characters of a text in which spaces are kept and all others are plain or written by their
codes. -/
theorem mem_quote {cs : List Char} {c : Char} (h : c ∈ quote [' '] cs) :
    isPlain c = true ∨ c = '%' ∨ c = ' ' := by
  obtain ⟨d, _, hd⟩ := List.mem_flatMap.mp h
  split at hd
  · next hkept =>
      rw [List.mem_singleton.mp hd]
      simp only [Bool.or_eq_true, List.contains_iff_mem, List.mem_singleton] at hkept
      exact hkept.imp_right Or.inr
  · obtain ⟨octet, _, hc⟩ := List.mem_flatMap.mp hd
    simp only [percent_eq, List.mem_cons, List.not_mem_nil, or_false] at hc
    rcases hc with rfl | rfl | rfl
    · exact Or.inr (Or.inl rfl)
    · exact Or.inl (hexDigit_upper _ (Nat.mod_lt _ (by omega))).2
    · exact Or.inl (hexDigit_upper _ (Nat.mod_lt _ (by omega))).2

theorem encodeChar_of_lt {c : Char} (h : c.toNat < 128) : Utf8.encodeChar c = [c.toNat] := by
  rw [Utf8.encodeChar]
  exact if_pos h

/-- Taken for octets, the codes of a text are its octets. -/
theorem runOctets_quote (cs : List Char) :
    runOctets (quote [' '] cs) = cs.flatMap Utf8.encodeChar := by
  induction cs with
  | nil => rfl
  | cons c cs ih =>
      rw [quote, List.flatMap_cons, ← quote, List.flatMap_cons, ← ih]
      split
      · next hkept =>
          have hc : c.toNat < 128 ∧ c ≠ '%' := by
            simp only [Bool.or_eq_true, List.contains_iff_mem, List.mem_singleton] at hkept
            rcases hkept with hplain | rfl
            · exact ⟨(isPlain_bounds hplain).1, (isPlain_bounds hplain).2.1⟩
            · decide
          rw [List.singleton_append, runOctets_cons hc.2, encodeChar_of_lt hc.1,
            List.singleton_append]
      · exact runOctets_flatMap_percent (fun octet => lt_of_mem_encodeChar) _

theorem decodeRuns_of_ascii {cs : List Char} (h : ∀ c ∈ cs, c.toNat < 128) (run : List Char) :
    decodeRuns run cs = Utf8.decodeLossy (runOctets (run.reverse ++ cs)) := by
  induction cs generalizing run with
  | nil => rw [decodeRuns, List.append_nil]
  | cons c cs ih =>
      rw [decodeRuns, if_pos (h c List.mem_cons_self),
        ih fun d hd => h d (List.mem_cons_of_mem _ hd), List.reverse_cons, List.append_assoc,
        List.singleton_append]

/-- A text is read back from its place in a query string. -/
theorem decode_encode (cs : List Char) : decode (encode cs) = cs := by
  have hspaces : (encode cs).map (fun c => if c = '+' then ' ' else c) = quote [' '] cs := by
    rw [encode, List.map_map]
    refine (List.map_congr_left fun c hc => ?_).trans (List.map_id _)
    show (if (if c = ' ' then '+' else c) = '+' then ' ' else if c = ' ' then '+' else c) = c
    by_cases hspace : c = ' '
    · rw [if_pos hspace, if_pos rfl, hspace]
    · rw [if_neg hspace, if_neg]
      rcases mem_quote hc with hplain | rfl | rfl
      · exact (isPlain_bounds hplain).2.2
      · decide
      · decide
  have hascii : ∀ c ∈ quote [' '] cs, c.toNat < 128 := by
    intro c hc
    rcases mem_quote hc with hplain | rfl | rfl
    · exact (isPlain_bounds hplain).1
    · decide
    · decide
  rw [decode, hspaces, unquote, decodeRuns_of_ascii hascii, List.reverse_nil, List.nil_append,
    runOctets_quote, Utf8.decodeLossy_encode]

/-- The signs that separate pairs and their parts, and the sign before a query string, are not
among the characters of a key or a value. -/
theorem not_mem_encode {c : Char} (hplain : isPlain c = false) (hpercent : c ≠ '%')
    (hplus : c ≠ '+') (cs : List Char) : c ∉ encode cs := by
  intro h
  obtain ⟨d, hd, rfl⟩ := List.mem_map.mp h
  by_cases hspace : d = ' '
  · rw [if_pos hspace] at hplus
    exact hplus rfl
  · rw [if_neg hspace] at hplain hpercent
    rcases mem_quote hd with hd | hd | hd
    · rw [hd] at hplain
      cases hplain
    · exact hpercent hd
    · exact hspace hd

/-! ## Pairs -/

/-- A pair as it stands in a query string. -/
def piece (pair : String × String) : List Char :=
  encode pair.1.toList ++ '=' :: encode pair.2.toList

theorem decodePair_piece (pair : String × String) : decodePair (piece pair) = pair := by
  have hkey : ∀ c ∈ encode pair.1.toList, (c != '=') = true := by
    intro c hc
    rw [bne_iff_ne]
    rintro rfl
    exact not_mem_encode (by decide) (by decide) (by decide) _ hc
  rw [decodePair, piece, List.takeWhile_append_of_pos hkey, List.dropWhile_append_of_pos hkey]
  show (String.ofList (decode (encode pair.1.toList ++ [])),
    String.ofList (decode (encode pair.2.toList))) = pair
  rw [List.append_nil, decode_encode, decode_encode, String.ofList_toList, String.ofList_toList]

theorem not_mem_piece {c : Char} (hplain : isPlain c = false) (hpercent : c ≠ '%') (hplus : c ≠ '+')
    (hequals : c ≠ '=') (pair : String × String) : c ∉ piece pair := by
  rw [piece, List.mem_append, List.mem_cons, not_or, not_or]
  exact ⟨not_mem_encode hplain hpercent hplus _, hequals, not_mem_encode hplain hpercent hplus _⟩

theorem encode?_of_whole {s : String} (h : Text.Whole s.toList) :
    encode? s = .ok (encode s.toList) := by
  rw [encode?, Text.halves?_of_whole h]

/-- Steps none of which fails give the list of their results. -/
theorem mapM_eq_ok {α β ε : Type} {f : α → Except ε β} {g : α → β} {as : List α}
    (h : ∀ a ∈ as, f a = .ok (g a)) : as.mapM f = .ok (as.map g) := by
  induction as with
  | nil => rfl
  | cons a as ih =>
      rw [List.mapM_cons, h a List.mem_cons_self, ih fun x hx => h x (List.mem_cons_of_mem _ hx)]
      rfl

/-- Pairs of texts that have octets have a query string. -/
theorem encodePairs_eq {pairs : List (String × String)}
    (h : ∀ pair ∈ pairs, Text.Whole pair.1.toList ∧ Text.Whole pair.2.toList) :
    encodePairs pairs = .ok (Text.joinWith ['&'] (pairs.map piece)) := by
  rw [encodePairs, mapM_eq_ok fun pair hpair => ?_]
  · rfl
  · obtain ⟨hkey, hvalue⟩ := h pair hpair
    show Except.bind (encode? pair.1) _ = _
    rw [encode?_of_whole hkey]
    show Except.bind (encode? pair.2) _ = _
    rw [encode?_of_whole hvalue]
    rfl

/-- The pairs of a query string are the ones it was written for. -/
theorem decodePairs_joinWith (pairs : List (String × String)) :
    decodePairs (Text.joinWith ['&'] (pairs.map piece)) = pairs := by
  cases pairs with
  | nil => rfl
  | cons first rest =>
      have hnone : ∀ p ∈ (first :: rest).map piece, '&' ∉ p := by
        intro p hp
        obtain ⟨pair, _, rfl⟩ := List.mem_map.mp hp
        exact not_mem_piece (by decide) (by decide) (by decide) (by decide) pair
      have hfull : ∀ p ∈ (first :: rest).map piece, (!p.isEmpty) = true := by
        intro p hp
        obtain ⟨pair, _, rfl⟩ := List.mem_map.mp hp
        simp [piece]
      have hne : (first :: rest).map piece ≠ [] := List.cons_ne_nil _ _
      rw [decodePairs, Text.splitAtChar_joinWith hne hnone,
        List.filter_eq_self.mpr hfull, List.map_map]
      exact (List.map_congr_left fun pair _ => decodePair_piece pair).trans (List.map_id _)

end Form

end Rowgate
