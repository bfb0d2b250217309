import Rowgate.Json.Marks
import Rowgate.Proofs.Json.RoundTrip

/-!
# Marks that are found

A document is scanned for marks from left to right, so what is said here is said about each piece of
it with any text after it: between quotes a mark is restored as the number text that it stands for,
and everything else is restored as itself, unless a stem lies in a text (`Restores`). What keeps a
text safe that has no stem in it is that the writer leaves the characters of a stem alone, and that
no escape has the line in it that a stem begins with (`IsStem.not_infix_escaped`).
-/

namespace Rowgate.Json

/-! ## Stems -/

/-- What is needed of a stem: it begins with a line, and the writer leaves its characters alone. -/
structure IsStem (stem : List Char) : Prop where
  line : ∃ rest, stem = '_' :: rest
  bare : ∀ c ∈ stem, c ≠ '"' ∧ c ≠ '\\' ∧ stringChar c = [c]
  whole : Text.Whole stem

theorem mem_hex {width n : Nat} {c : Char} (h : c ∈ Text.hex width n) :
    ∃ k < 16, c = Text.hexDigits.getD k '0' := by
  induction width generalizing n with
  | zero => cases h
  | succ width ih =>
      rw [Text.hex] at h
      rcases List.mem_append.mp h with h | h
      · exact ih h
      · exact ⟨n % 16, Nat.mod_lt n (by decide), List.mem_singleton.mp h⟩

/-- What holds of the letters and lines in stems and of hexadecimal digits holds of stems. -/
theorem forall_mem_stem {P : Char → Prop} [DecidablePred P]
    (hword : "__decimal_".toList.all (P ·) = true)
    (hhex : ∀ k < 16, P (Text.hexDigits.getD k '0')) (drawn : Nat) : ∀ c ∈ stem drawn, P c := by
  have hword : ∀ c ∈ "__decimal_".toList, P c := fun c hc =>
    of_decide_eq_true (List.all_eq_true.mp hword c hc)
  intro c hc
  unfold stem at hc
  rcases List.mem_append.mp hc with hc | hc
  · exact hword c hc
  rcases List.mem_append.mp hc with hc | hc
  · obtain ⟨k, hk, rfl⟩ := mem_hex hc
    exact hhex k hk
  · rw [List.mem_singleton.mp hc]
    exact hword '_' (by decide)

theorem isStem_stem (drawn : Nat) : IsStem (stem drawn) where
  line := ⟨_, rfl⟩
  bare := forall_mem_stem (by decide) (by decide) drawn
  whole := forall_mem_stem (by decide) (by decide) drawn

section Stems

variable {stem : List Char} (h : IsStem stem)

include h

theorem IsStem.not_prefix_cons {c : Char} (hc : c ≠ '_') (cs : List Char) : ¬ stem <+: c :: cs := by
  obtain ⟨rest, rfl⟩ := h.line
  exact fun hstarts => hc (List.cons_prefix_cons.mp hstarts).1.symm

theorem IsStem.not_prefix_nil : ¬ stem <+: [] := by
  obtain ⟨rest, rfl⟩ := h.line
  exact fun hstarts => nomatch List.prefix_nil.mp hstarts

/-- A text without lines has no stem in it. -/
theorem IsStem.absent {cs : List Char} (hline : '_' ∉ cs) : ¬ stem <:+: cs := by
  obtain ⟨rest, rfl⟩ := h.line
  exact fun hlies => hline (hlies.subset List.mem_cons_self)

omit h in
/-- A text does not go on past a character that it does not have. -/
theorem prefix_of_append {c : Char} (hc : c ∉ stem) {cs rest : List Char}
    (hstarts : stem <+: cs ++ c :: rest) : stem <+: cs := by
  have hlonger : cs ++ [c] <+: cs ++ c :: rest := ⟨rest, by simp⟩
  rcases List.prefix_or_prefix_of_prefix hstarts hlonger with hcs | hcs
  · rcases List.prefix_concat_iff.mp hcs with rfl | hcs
    · exact absurd (List.mem_append_right _ List.mem_cons_self) hc
    · exact hcs
  · exact absurd (hcs.subset (List.mem_append_right _ List.mem_cons_self)) hc

end Stems

/-! ## The scan -/

section Scan

variable {stem : List Char} {texts : List (List Char)}

theorem restoreFrom_skip (before rest : List Char) :
    restoreFrom stem texts before.length (before ++ rest) = restoreFrom stem texts 0 rest := by
  induction before with
  | nil => rfl
  | cons c before ih => exact ih

theorem quotedMark?_of_ne {c : Char} (h : c ≠ '"') (cs : List Char) :
    quotedMark? stem (c :: cs) = none := by
  rw [quotedMark?.eq_def]
  split
  · next heq => exact absurd (List.cons.inj heq).1 h
  · rfl

theorem quotedMark?_of_not_stem {cs : List Char} (h : ¬ stem <+: cs) :
    quotedMark? stem ('"' :: cs) = none := by
  rw [quotedMark?, if_neg]
  rwa [List.isPrefixOf_iff_prefix]

theorem restoreFrom_of_none {c : Char} {cs : List Char} (h : quotedMark? stem (c :: cs) = none) :
    restoreFrom stem texts 0 (c :: cs) = (restoreFrom stem texts 0 cs).map (c :: ·) := by
  rw [restoreFrom, h]

/-- A text without quotes is left as it is. -/
theorem restoreFrom_copy {text : List Char} (h : '"' ∉ text) (rest : List Char) :
    restoreFrom stem texts 0 (text ++ rest) =
      (restoreFrom stem texts 0 rest).map (text ++ ·) := by
  induction text with
  | nil => exact Option.map_id'.symm
  | cons c text ih =>
      rw [List.mem_cons, not_or] at h
      rw [List.cons_append, restoreFrom_of_none (quotedMark?_of_ne (Ne.symm h.1) _), ih h.2,
        Option.map_map]
      rfl

/-- What stands between quotes is left as it is if no stem lies in it. -/
theorem restoreFrom_body {body : List Char} (hquote : '"' ∉ stem) (h : ¬ stem <:+: body)
    (rest : List Char) :
    restoreFrom stem texts 0 (body ++ '"' :: rest) =
      (restoreFrom stem texts 0 ('"' :: rest)).map (body ++ ·) := by
  induction body with
  | nil => exact Option.map_id'.symm
  | cons c body ih =>
      rw [List.infix_cons_iff, not_or] at h
      -- escaped quotes stand in a body too, and a mark could begin at any of them
      have hnone : quotedMark? stem (c :: (body ++ '"' :: rest)) = none := by
        by_cases hc : c = '"'
        · rw [hc]
          exact quotedMark?_of_not_stem fun hstarts =>
            h.2 (prefix_of_append hquote hstarts).isInfix
        · exact quotedMark?_of_ne hc _
      rw [List.cons_append, restoreFrom_of_none hnone, ih h.2, Option.map_map]
      rfl

/-- With no number texts a scan that comes through has changed nothing. -/
theorem restoreFrom_nil {cs ds : List Char} (h : restoreFrom stem [] 0 cs = some ds) : ds = cs := by
  induction cs generalizing ds with
  | nil => exact (Option.some.inj h).symm
  | cons c cs ih =>
      rw [restoreFrom] at h
      cases hmark : quotedMark? stem (c :: cs) with
      | some found =>
          rw [hmark] at h
          cases h
      | none =>
          rw [hmark] at h
          obtain ⟨rest, hrest, rfl⟩ := Option.map_eq_some_iff.mp h
          rw [ih hrest]

end Scan

/-! ## Escapes -/

/-- A character is written as itself or as an escape, in which there is no line. -/
theorem stringChar_cases (c : Char) :
    stringChar c = [c] ∨ ∃ escape, stringChar c = '\\' :: escape ∧ '_' ∉ escape := by
  rw [stringChar]
  split
  · exact Or.inr ⟨_, rfl, by decide⟩
  split
  · exact Or.inr ⟨_, rfl, by decide⟩
  split
  · exact Or.inr ⟨_, rfl, by decide⟩
  split
  · exact Or.inr ⟨_, rfl, by decide⟩
  split
  · exact Or.inr ⟨_, rfl, by decide⟩
  split
  · exact Or.inr ⟨_, rfl, by decide⟩
  split
  · exact Or.inr ⟨_, rfl, by decide⟩
  split
  · refine Or.inr ⟨_, rfl, fun hmem => ?_⟩
    have hline : ∀ k < 16, '_' ≠ Text.hexDigits.getD k '0' := by decide
    obtain ⟨k, hk, heq⟩ := mem_hex ((List.mem_cons.mp hmem).resolve_left (by decide))
    exact hline k hk heq
  · exact Or.inl rfl

section Escapes

variable {stem cs : List Char}

/-- What a written text begins with, the text begins with, unless an escape is in it. -/
theorem prefix_of_escaped (hstroke : ∀ c ∈ stem, c ≠ '\\')
    (h : stem <+: cs.flatMap stringChar) : stem <+: cs := by
  induction stem generalizing cs with
  | nil => exact List.nil_prefix
  | cons d stem ih =>
      cases cs with
      | nil => cases List.prefix_nil.mp h
      | cons c cs =>
          rw [List.flatMap_cons] at h
          rcases stringChar_cases c with hc | ⟨escape, hc, -⟩
          · rw [hc, List.singleton_append, List.cons_prefix_cons] at h
            rw [List.cons_prefix_cons]
            exact ⟨h.1, ih (fun x hx => hstroke x (List.mem_cons_of_mem d hx)) h.2⟩
          · rw [hc, List.cons_append, List.cons_prefix_cons] at h
            exact absurd h.1 (hstroke d List.mem_cons_self)

theorem infix_of_append {c : Char} {tail before rest : List Char} (hc : c ∉ before)
    (h : c :: tail <:+: before ++ rest) : c :: tail <:+: rest := by
  induction before with
  | nil => exact h
  | cons d before ih =>
      rw [List.mem_cons, not_or] at hc
      rw [List.cons_append, List.infix_cons_iff, List.cons_prefix_cons] at h
      exact ih hc.2 (h.resolve_left fun hfirst => hc.1 hfirst.1)

/-- A stem lies in what a text is written as only if it lies in the text. -/
theorem IsStem.not_infix_escaped (hstem : IsStem stem) (h : ¬ stem <:+: cs) :
    ¬ stem <:+: cs.flatMap stringChar := by
  induction cs with
  | nil => exact h
  | cons c cs ih =>
      rw [List.infix_cons_iff, not_or] at h
      intro hlies
      rw [List.flatMap_cons] at hlies
      rcases stringChar_cases c with hc | ⟨escape, hc, hline⟩
      · rw [hc, List.singleton_append, List.infix_cons_iff] at hlies
        rcases hlies with hstarts | hlies
        · refine h.1 (prefix_of_escaped (fun x hx => (hstem.bare x hx).2.1) ?_)
          rwa [List.flatMap_cons, hc]
        · exact ih h.2 hlies
      · -- a stem begins with a line, so it begins behind the escape
        obtain ⟨tail, rfl⟩ := hstem.line
        rw [hc] at hlies
        have hescape : '_' ∉ '\\' :: escape := by
          rw [List.mem_cons, not_or]
          exact ⟨by decide, hline⟩
        exact ih h.2 (infix_of_append hescape hlies)

end Escapes

/-! ## Marks -/

theorem stringChar_of_isDigit {d : Char} (h : d.isDigit = true) : stringChar d = [d] := by
  have hne : ∀ c : Char, c.isDigit = false → d ≠ c := by
    rintro c hc rfl
    rw [h] at hc
    cases hc
  have hd := isDigit_iff.mp h
  have hhalf : Text.isHalf d = false := whole_of_isDigit (List.forall_mem_singleton.mpr h) d
    List.mem_cons_self
  rw [stringChar, if_neg (hne _ (by decide)), if_neg (hne _ (by decide)),
    if_neg (hne _ (by decide)), if_neg (hne _ (by decide)), if_neg (hne _ (by decide)),
    if_neg (hne _ (by decide)), if_neg (hne _ (by decide)), if_neg]
  rw [hhalf, Bool.or_false, decide_eq_true_eq]
  omega

theorem flatMap_stringChar {cs : List Char} (h : ∀ c ∈ cs, stringChar c = [c]) :
    cs.flatMap stringChar = cs := by
  induction cs with
  | nil => rfl
  | cons c cs ih =>
      rw [List.flatMap_cons, h c List.mem_cons_self,
        ih fun d hd => h d (List.mem_cons_of_mem c hd), List.singleton_append]

theorem markNumber_digitsOf (n : Nat) : markNumber (digitsOf n) = n := by
  have hfold : ∀ (ds : List Char) (k : Nat), (∀ d ∈ ds, d.isDigit = true) →
      ds.foldl (fun n d => 10 * n + (Text.digitValue? d).getD 0) k = Nat.ofDigitChars 10 ds k := by
    intro ds
    induction ds with
    | nil => exact fun k _ => rfl
    | cons d ds ih =>
        intro k hds
        rw [List.foldl_cons, digitValue?_of_isDigit (hds d List.mem_cons_self),
          ih _ fun x hx => hds x (List.mem_cons_of_mem d hx)]
        rfl
  rw [markNumber, hfold _ 0 fun _ => isDigit_of_mem_digitsOf]
  exact ofDigits_digitsOf n

section Marks

variable {stem : List Char} (h : IsStem stem)

include h

theorem IsStem.string_markText (number : Nat) :
    string (markText stem number) = '"' :: (markText stem number ++ ['"']) := by
  rw [string, flatMap_stringChar]
  intro c hc
  rcases List.mem_append.mp hc with hc | hc
  · exact (h.bare c hc).2.2
  · exact stringChar_of_isDigit (isDigit_of_mem_digitsOf hc)

theorem IsStem.whole_markText (number : Nat) : Text.Whole (markText stem number) :=
  Text.whole_append.mpr ⟨h.whole, whole_of_isDigit fun _ => isDigit_of_mem_digitsOf⟩

omit h in
/-- A mark between quotes is found. -/
theorem quotedMark?_markText (number : Nat) (rest : List Char) :
    quotedMark? stem ('"' :: (markText stem number ++ '"' :: rest)) =
      some (number, (markText stem number).length + 2) := by
  have hdecimal : ∀ d ∈ digitsOf number, Text.isDecimal d = true :=
    fun _ hd => isDecimal_of_isDigit (isDigit_of_mem_digitsOf hd)
  have hquote : Text.isDecimal '"' ≠ true := by decide
  have hstarts : stem.isPrefixOf (stem ++ (digitsOf number ++ '"' :: rest)) = true := by
    rw [List.isPrefixOf_iff_prefix]
    exact List.prefix_append _ _
  have hfound : (!(digitsOf number).isEmpty && ('"' :: rest).head? == some '"') = true := by
    rw [Bool.and_eq_true, Bool.not_eq_true', List.isEmpty_eq_false_iff]
    exact ⟨digitsOf_ne_nil number, beq_self_eq_true _⟩
  rw [quotedMark?, markText, List.append_assoc, if_pos hstarts, List.drop_left]
  dsimp only
  rw [List.takeWhile_append_of_pos hdecimal, List.takeWhile_cons_of_neg hquote, List.append_nil,
    List.dropWhile_append_of_pos hdecimal, List.dropWhile_cons_of_neg hquote, if_pos hfound,
    markNumber_digitsOf, List.length_append]

end Marks

/-! ## Pieces of a document -/

/-- A piece of a document is restored as a text, whatever follows it that no stem begins. -/
def Restores (stem : List Char) (texts : List (List Char)) (piece text : List Char) : Prop :=
  ∀ all, texts <+: all → ∀ rest, ¬ stem <+: rest →
    restoreFrom stem all 0 (piece ++ rest) = (restoreFrom stem all 0 rest).map (text ++ ·)

namespace Restores

variable {stem : List Char} {texts texts' : List (List Char)} {piece text piece' text' : List Char}

theorem mono (h : Restores stem texts piece text) (htexts : texts <+: texts') :
    Restores stem texts' piece text := fun all hall => h all (htexts.trans hall)

theorem copy (hquote : '"' ∉ text) : Restores stem texts text text :=
  fun _ _ rest _ => restoreFrom_copy hquote rest

/-- A character that is no quote, before a piece. -/
theorem cons {c : Char} (hc : c ≠ '"') (h : Restores stem texts piece text) :
    Restores stem texts (c :: piece) (c :: text) := by
  intro all hall rest hrest
  rw [List.cons_append, restoreFrom_of_none (quotedMark?_of_ne hc _), h all hall rest hrest,
    Option.map_map]
  rfl

theorem append (hstem : IsStem stem) {c : Char} (hc : c ≠ '_') (h : Restores stem texts piece text)
    (h' : Restores stem texts (c :: piece') text') :
    Restores stem texts (piece ++ c :: piece') (text ++ text') := by
  intro all hall rest hrest
  rw [List.append_assoc, List.cons_append, h all hall _ (hstem.not_prefix_cons hc _),
    ← List.cons_append, h' all hall rest hrest, Option.map_map]
  congr 1
  funext tail
  exact (List.append_assoc text text' tail).symm

/-- A text without a stem, between quotes. -/
theorem string (hstem : IsStem stem) {cs : List Char} (h : ¬ stem <:+: cs) :
    Restores stem texts (string cs) (string cs) := by
  have hquote : '"' ∉ stem := fun hmem => (hstem.bare _ hmem).1 rfl
  have hbody := hstem.not_infix_escaped h
  intro all _ rest hrest
  have hopening : ¬ stem <+: cs.flatMap stringChar ++ '"' :: rest := fun hstarts =>
    hbody (prefix_of_append hquote hstarts).isInfix
  rw [Json.string, List.cons_append, List.append_assoc, List.singleton_append,
    restoreFrom_of_none (quotedMark?_of_not_stem hopening), restoreFrom_body hquote hbody,
    restoreFrom_of_none (quotedMark?_of_not_stem hrest), Option.map_map, Option.map_map]
  congr 1
  funext tail
  simp

/-- A mark whose number text comes next. -/
theorem mark (hstem : IsStem stem) (texts : List (List Char)) (text : List Char) :
    Restores stem (texts ++ [text]) (Json.string (markText stem texts.length)) text := by
  rintro all ⟨more, rfl⟩ rest -
  have hnext : (texts ++ [text] ++ more)[texts.length]? = some text := by
    rw [List.append_assoc, List.getElem?_append_right (Nat.le_refl _), Nat.sub_self]
    rfl
  generalize texts ++ [text] ++ more = all at hnext
  -- the scan skips what is left of the mark behind its first quote
  have hskip : restoreFrom stem all ((markText stem texts.length).length + 1)
      (markText stem texts.length ++ '"' :: rest) = restoreFrom stem all 0 rest := by
    rw [← List.singleton_append, ← List.append_assoc,
      ← restoreFrom_skip (markText stem texts.length ++ ['"']) rest, List.length_append]
    rfl
  rw [hstem.string_markText, List.cons_append, List.append_assoc, List.singleton_append,
    restoreFrom, quotedMark?_markText]
  dsimp only
  rw [hnext, Option.bind_some]
  exact congrArg (Option.map (text ++ ·)) hskip

end Restores

end Rowgate.Json
