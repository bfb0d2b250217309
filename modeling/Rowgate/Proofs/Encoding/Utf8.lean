import Rowgate.Encoding.Utf8

/-!
# Octets that are decoded to the text they encode

A text has octets if it is whole, which is to say that it holds no half of a surrogate pair.
Decoding with replacement characters is lenient about everything, but the octets of a text leave it
nothing to be lenient about. The first octet of a character promises how many follow and the range
of the next one (`lead?_three`, `lead?_four`), the others give six bits each, and what was read is
the character again.
-/

namespace Rowgate

/-- Whether a text holds no half of a surrogate pair. -/
def Text.Whole (cs : List Char) : Prop := ∀ c ∈ cs, Text.isHalf c = false

instance (cs : List Char) : Decidable (Text.Whole cs) :=
  List.decidableBAll _ cs

theorem Text.whole_cons {c : Char} {cs : List Char} :
    Text.Whole (c :: cs) ↔ Text.isHalf c = false ∧ Text.Whole cs :=
  List.forall_mem_cons

theorem Text.whole_append {cs ds : List Char} :
    Text.Whole (cs ++ ds) ↔ Text.Whole cs ∧ Text.Whole ds :=
  List.forall_mem_append

theorem Text.halves?_of_whole {cs : List Char} (h : Text.Whole cs) : Text.halves? cs = none :=
  Text.halvesFrom?_eq_none_iff.mpr h

namespace Utf8

theorem tails_zero (least greatest bits width : Nat) (octets : List Nat) :
    tails 0 least greatest bits width octets = .char bits width := by
  cases octets <;> rfl

theorem tails_succ {owed least greatest bits width b : Nat} (hl : least ≤ b) (hg : b ≤ greatest)
    (rest : List Nat) : tails (owed + 1) least greatest bits width (b :: rest) =
      tails owed 0x80 0xbf (bits * 64 + (b - 0x80)) (width + 1) rest := by
  rw [tails, if_pos ⟨hl, hg⟩]

theorem lead?_two {n : Nat} (hl : 0x80 ≤ n) (hg : n < 0x800) :
    lead? (0xc0 + n / 64) = some ⟨1, 0x80, 0xbf, n / 64⟩ := by
  rw [lead?, if_neg (by omega), if_pos (by omega), Nat.add_sub_cancel_left]

theorem lead?_three {n : Nat} (hl : 0x800 ≤ n) (hg : n < 0x10000)
    (hs : n < 0xd800 ∨ 0xdfff < n) :
    ∃ least greatest, lead? (0xe0 + n / 4096) = some ⟨2, least, greatest, n / 4096⟩ ∧
      least ≤ 0x80 + n / 64 % 64 ∧ 0x80 + n / 64 % 64 ≤ greatest := by
  rw [lead?, if_neg (by omega), if_neg (by omega)]
  by_cases hfirst : n / 4096 = 0
  · rw [hfirst]
    exact ⟨_, _, rfl, by omega, by omega⟩
  rw [if_neg (by omega)]
  by_cases hsurrogates : n / 4096 = 0xd
  · rw [hsurrogates]
    exact ⟨_, _, rfl, by omega, by omega⟩
  rw [if_neg (by omega), if_pos (by omega), Nat.add_sub_cancel_left]
  exact ⟨_, _, rfl, by omega, by omega⟩

theorem lead?_four {n : Nat} (hl : 0x10000 ≤ n) (hg : n < 0x110000) :
    ∃ least greatest, lead? (0xf0 + n / 262144) = some ⟨3, least, greatest, n / 262144⟩ ∧
      least ≤ 0x80 + n / 4096 % 64 ∧ 0x80 + n / 4096 % 64 ≤ greatest := by
  rw [lead?, if_neg (by omega), if_neg (by omega), if_neg (by omega), if_neg (by omega),
    if_neg (by omega)]
  by_cases hfirst : n / 262144 = 0
  · rw [hfirst]
    exact ⟨_, _, rfl, by omega, by omega⟩
  rw [if_neg (by omega)]
  by_cases hlast : n / 262144 = 4
  · rw [hlast]
    exact ⟨_, _, rfl, by omega, by omega⟩
  rw [if_pos (by omega), Nat.add_sub_cancel_left]
  exact ⟨_, _, rfl, by omega, by omega⟩

theorem toNat_lt_or (c : Char) : c.toNat < 0xd800 ∨ 0xdfff < c.toNat ∧ c.toNat < 0x110000 :=
  c.valid

/-- The octets of a character, whatever follows them, are read as that character. -/
theorem first_encodeChar (c : Char) : ∃ b octets, encodeChar c = b :: octets ∧
    ∀ rest, first b (octets ++ rest) = .char c.toNat (octets.length + 1) := by
  have hvalid := toNat_lt_or c
  rw [encodeChar]
  generalize c.toNat = n at hvalid
  split
  · next h =>
      refine ⟨n, [], rfl, fun rest => ?_⟩
      rw [first, lead?, if_pos h]
      exact tails_zero _ _ _ _ _
  split
  · refine ⟨_, _, rfl, fun rest => ?_⟩
    rw [first, lead?_two (by omega) (by omega)]
    simp only [List.cons_append, List.nil_append]
    have hcode : n / 64 * 64 + (0x80 + n % 64 - 0x80) = n := by omega
    rw [tails_succ (by omega) (by omega), tails_zero, hcode]
    rfl
  split
  · obtain ⟨least, greatest, hlead, hleast, hgreatest⟩ :=
      lead?_three (n := n) (by omega) (by omega) (by omega)
    refine ⟨_, _, rfl, fun rest => ?_⟩
    rw [first, hlead]
    simp only [List.cons_append, List.nil_append]
    have hcode :
        (n / 4096 * 64 + (0x80 + n / 64 % 64 - 0x80)) * 64 + (0x80 + n % 64 - 0x80) = n := by
      omega
    rw [tails_succ hleast hgreatest, tails_succ (by omega) (by omega), tails_zero, hcode]
    rfl
  · obtain ⟨least, greatest, hlead, hleast, hgreatest⟩ :=
      lead?_four (n := n) (by omega) (by omega)
    refine ⟨_, _, rfl, fun rest => ?_⟩
    rw [first, hlead]
    simp only [List.cons_append, List.nil_append]
    have hcode : ((n / 262144 * 64 + (0x80 + n / 4096 % 64 - 0x80)) * 64 +
        (0x80 + n / 64 % 64 - 0x80)) * 64 + (0x80 + n % 64 - 0x80) = n := by
      omega
    rw [tails_succ hleast hgreatest, tails_succ (by omega) (by omega),
      tails_succ (by omega) (by omega), tails_zero, hcode]
    rfl

theorem decodeLossyFrom_skip (octets rest : List Nat) :
    decodeLossyFrom octets.length (octets ++ rest) = decodeLossyFrom 0 rest := by
  induction octets with
  | nil => rfl
  | cons b octets ih => exact ih

theorem decodeLossyFrom_encodeChar (c : Char) (rest : List Nat) :
    decodeLossyFrom 0 (encodeChar c ++ rest) = c :: decodeLossyFrom 0 rest := by
  obtain ⟨b, octets, hoctets, hfirst⟩ := first_encodeChar c
  rw [hoctets, List.cons_append, decodeLossyFrom, hfirst rest]
  show Char.ofNat c.toNat :: decodeLossyFrom octets.length (octets ++ rest) = _
  rw [decodeLossyFrom_skip, Char.ofNat_toNat]

/-- The octets of a text are decoded to that text. -/
theorem decodeLossy_encode (cs : List Char) : decodeLossy (cs.flatMap encodeChar) = cs := by
  rw [decodeLossy]
  induction cs with
  | nil => rfl
  | cons c cs ih => rw [List.flatMap_cons, decodeLossyFrom_encodeChar, ih]

end Utf8

end Rowgate
