/-!
# Surrogates

Units of sixteen bits code a character beyond the first 65536 by a pair of surrogates, a high one
and a low one. A text that is written in such units, or in escapes of them, may hold half a pair
alone. No character has such a code, so the half is kept as a stand-in: the character of the last
private plane whose code ends in the same sixteen bits. The stand-ins are reserved for this; a text
that holds one of them as a character is read as holding the half.

Wherever codes matter, in the order of texts, in escapes and in octets, `codeOf` tells the code that
a character is kept for. `codeOf_charOf` says that nothing else changes its code.

So a text stands for its `codes`, the halves among them. `codes_inj` and `exists_codes_iff` say what
texts can stand for: any list of codes, by exactly one text, in which no code is that of a stand-in.
Whatever is proved of all texts holds of all such lists of codes.
-/

namespace Rowgate.Text

def isHighSurrogate (code : Nat) : Bool := decide (0xd800 ≤ code) && decide (code < 0xdc00)

def isLowSurrogate (code : Nat) : Bool := decide (0xdc00 ≤ code) && decide (code < 0xe000)

def joinSurrogates (high low : Nat) : Nat := 0x10000 + (high - 0xd800) * 0x400 + (low - 0xdc00)

/-- Whether a character stands for half a surrogate pair. -/
def isHalf (c : Char) : Bool := decide (0x10d800 ≤ c.toNat) && decide (c.toNat < 0x10e000)

/-- The code that a character is kept for. -/
def codeOf (c : Char) : Nat := if isHalf c then c.toNat - 0x100000 else c.toNat

/-- The character that is kept for a code: itself, or the stand-in of half a pair. -/
def charOf (code : Nat) : Char :=
  if code.isValidChar then Char.ofNat code else Char.ofNat (code + 0x100000)

theorem isHalf_iff {c : Char} : isHalf c ↔ 0x10d800 ≤ c.toNat ∧ c.toNat < 0x10e000 := by
  rw [isHalf, Bool.and_eq_true, decide_eq_true_iff, decide_eq_true_iff]

/-- No character has the code of half a pair. -/
theorem toNat_valid (c : Char) : c.toNat < 0xd800 ∨ 0xdfff < c.toNat ∧ c.toNat < 0x110000 := by
  have h := c.valid
  rw [UInt32.isValidChar, Nat.isValidChar] at h
  exact h

theorem toNat_ofNat {n : Nat} (h : n.isValidChar) : (Char.ofNat n).toNat = n := by
  rw [Char.ofNat, dif_pos h]
  rfl

/-- A code is kept as it is, unless it belongs to a stand-in or is none at all. -/
theorem codeOf_charOf {code : Nat} (h : code < 0x10d800 ∨ 0x10e000 ≤ code)
    (hc : code < 0x110000) : codeOf (charOf code) = code := by
  by_cases hv : code.isValidChar
  · have hn : (charOf code).toNat = code := by rw [charOf, if_pos hv, toNat_ofNat hv]
    have hf : ¬isHalf (charOf code) := by
      rw [isHalf_iff, hn]
      omega
    rw [codeOf, if_neg hf, hn]
  · have hs : 0xd800 ≤ code ∧ code < 0xe000 := by
      rw [Nat.isValidChar] at hv
      omega
    have hv' : (code + 0x100000).isValidChar := by
      rw [Nat.isValidChar]
      omega
    have hn : (charOf code).toNat = code + 0x100000 := by
      rw [charOf, if_neg hv, toNat_ofNat hv']
    have hf : isHalf (charOf code) := by
      rw [isHalf_iff, hn]
      omega
    rw [codeOf, if_pos hf, hn]
    omega

/-- The code of a character tells the character: what is kept for half a pair has a code that no
other character has. -/
theorem codeOf_injective {c d : Char} (h : codeOf c = codeOf d) : c = d := by
  have hc := toNat_valid c
  have hd := toNat_valid d
  have hnat : c.toNat = d.toNat := by
    rw [codeOf, codeOf] at h
    by_cases h₁ : isHalf c <;> by_cases h₂ : isHalf d <;>
      simp only [h₁, h₂, if_true, if_false, Bool.false_eq_true] at h <;>
      simp only [isHalf_iff] at h₁ h₂ <;> omega
  exact Char.toNat_inj.mp hnat

/-! ## The codes of a text -/

/-- Whether some character is kept for a code: there is such a code, and no stand-in has it. -/
def Kept (code : Nat) : Prop := code < 0x110000 ∧ (code < 0x10d800 ∨ 0x10e000 ≤ code)

theorem kept_codeOf (c : Char) : Kept (codeOf c) := by
  have hc := toNat_valid c
  rw [Kept, codeOf]
  split
  · next h =>
    rw [isHalf_iff] at h
    omega
  · next h =>
    rw [isHalf_iff] at h
    omega

/-- The codes of a text. -/
def codes (cs : List Char) : List Nat := cs.map codeOf

theorem codes_inj {cs ds : List Char} : codes cs = codes ds ↔ cs = ds :=
  List.map_inj_right fun _ _ h => codeOf_injective h

/-- The lists of codes that texts stand for. -/
theorem exists_codes_iff {ns : List Nat} : (∃ cs, codes cs = ns) ↔ ∀ n ∈ ns, Kept n := by
  constructor
  · rintro ⟨cs, rfl⟩ n hn
    obtain ⟨c, -, rfl⟩ := List.mem_map.mp hn
    exact kept_codeOf c
  · intro h
    have hns : ns.map (codeOf ∘ charOf) = ns.map id :=
      List.map_congr_left fun n hn => codeOf_charOf (h n hn).2 (h n hn).1
    refine ⟨ns.map charOf, ?_⟩
    rw [codes, List.map_map, hns, List.map_id]

/-- The order of two texts by their codes, the shorter of two that begin alike first. -/
def compareCodes : List Char → List Char → Ordering
  | [], [] => .eq
  | [], _ :: _ => .lt
  | _ :: _, [] => .gt
  | c :: cs, d :: ds =>
    if codeOf c < codeOf d then .lt
    else if codeOf d < codeOf c then .gt
    else compareCodes cs ds

/-- Whether a text stands before another one, or where the other one stands. -/
def notAfter (s t : String) : Bool := compareCodes s.toList t.toList != .gt

/-! ## Halves in a text -/

/-- The first halves of pairs in a text: their place, how many stand together, and the code of the
first one. -/
structure Halves where
  position : Nat
  width : Nat
  code : Nat
  deriving DecidableEq

/-- The first halves of pairs in a text that starts at `position`. -/
def halvesFrom? (position : Nat) : List Char → Option Halves
  | [] => none
  | c :: cs =>
    if isHalf c then some ⟨position, ((c :: cs).takeWhile isHalf).length, codeOf c⟩
    else halvesFrom? (position + 1) cs

/-- The first halves of pairs in a text, if there are any. -/
def halves? (cs : List Char) : Option Halves := halvesFrom? 0 cs

theorem halvesFrom?_eq_none_iff {position : Nat} {cs : List Char} :
    halvesFrom? position cs = none ↔ ∀ c ∈ cs, isHalf c = false := by
  induction cs generalizing position with
  | nil => simp [halvesFrom?]
  | cons c cs ih =>
    by_cases h : isHalf c
    · simp [halvesFrom?, h]
    · simp [halvesFrom?, h, ih]

end Rowgate.Text
