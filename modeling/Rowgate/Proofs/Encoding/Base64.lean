import Mathlib.Data.List.Basic
import Rowgate.Encoding.Base64

/-!
# Octets that are read back from their sixty-four characters

A text in the alphabet has two parts: a character for every six bits, and the signs that complete the
last four characters. The first part gives the octets again, three from every four characters
(`octets_sixes`), and the second part is as long as the reader wants it to be (`padded_sixes`).
-/

namespace Rowgate.Base64

/-- The bits of octets in numbers below 64, the last of which may be filled up with zeros. -/
def sixes : List UInt8 → List Nat
  | [] => []
  | [a] =>
    let n := a.toNat * 16
    [n / 64, n % 64]
  | [a, b] =>
    let n := (a.toNat * 256 + b.toNat) * 4
    [n / 4096, n / 64 % 64, n % 64]
  | a :: b :: c :: rest =>
    let n := (a.toNat * 256 + b.toNat) * 256 + c.toNat
    n / 262144 :: n / 4096 % 64 :: n / 64 % 64 :: n % 64 :: sixes rest

/-- How many signs complete the last four characters. -/
def signCount : List UInt8 → Nat
  | [] => 0
  | [_] => 2
  | [_, _] => 1
  | _ :: _ :: _ :: rest => signCount rest

theorem encode_eq (os : List UInt8) :
    encode os = (sixes os).map digit ++ List.replicate (signCount os) '=' := by
  induction os using encode.induct with
  | case1 => rfl
  | case2 a => rfl
  | case3 a b => rfl
  | case4 a b c rest ih =>
      rw [encode, sixes, signCount, ih]
      rfl

/-! ## The alphabet -/

theorem value?_digit : ∀ n < 64, value? (digit n) = some n := by decide

theorem digit_ne_sign : ∀ n < 64, digit n ≠ '=' := by decide

theorem lt_of_mem_sixes {os : List UInt8} {n : Nat} (h : n ∈ sixes os) : n < 64 := by
  induction os using sixes.induct with
  | case1 => cases h
  | case2 a =>
      have ha := a.toNat_lt
      simp only [sixes, List.mem_cons, List.not_mem_nil, or_false] at h
      omega
  | case3 a b =>
      have ha := a.toNat_lt
      have hb := b.toNat_lt
      simp only [sixes, List.mem_cons, List.not_mem_nil, or_false] at h
      omega
  | case4 a b c rest ih =>
      have ha := a.toNat_lt
      have hb := b.toNat_lt
      have hc := c.toNat_lt
      simp only [sixes, List.mem_cons] at h
      rcases h with h | h | h | h | h
      · omega
      · omega
      · omega
      · omega
      · exact ih h

/-- What holds of the alphabet and of the sign that completes a text holds of all its characters. -/
theorem forall_mem_encode {P : Char → Prop} (hdigit : ∀ n < 64, P (digit n)) (hsign : P '=')
    {os : List UInt8} : ∀ c ∈ encode os, P c := by
  intro c h
  rw [encode_eq, List.mem_append] at h
  rcases h with h | h
  · obtain ⟨n, hn, rfl⟩ := List.mem_map.mp h
    exact hdigit n (lt_of_mem_sixes hn)
  · rw [List.eq_of_mem_replicate h]
    exact hsign

/-! ## Reading -/

theorem ofNat_eq {n : Nat} {a : UInt8} (h : n = a.toNat) : UInt8.ofNat n = a := by
  rw [h, UInt8.ofNat_toNat]

theorem octets_sixes (os : List UInt8) : octets (sixes os) = os := by
  induction os using sixes.induct with
  | case1 => rfl
  | case2 a =>
      have ha := a.toNat_lt
      rw [sixes, octets, ofNat_eq (a := a) (by omega)]
  | case3 a b =>
      have ha := a.toNat_lt
      have hb := b.toNat_lt
      simp only [sixes, octets]
      rw [ofNat_eq (a := a) (by omega), ofNat_eq (a := b) (by omega)]
  | case4 a b c rest ih =>
      have ha := a.toNat_lt
      have hb := b.toNat_lt
      have hc := c.toNat_lt
      simp only [sixes, octets, ih]
      rw [ofNat_eq (a := a) (by omega), ofNat_eq (a := b) (by omega), ofNat_eq (a := c) (by omega)]

theorem padded_add_four {count signs : Nat} (h : padded count signs = true) :
    padded (count + 4) signs = true := by
  rw [padded, Nat.add_mod_right]
  rw [padded] at h
  split at h
  · simp
  · exact h
  · exact h
  · cases h

theorem padded_sixes (os : List UInt8) : padded (sixes os).length (signCount os) = true := by
  induction os using sixes.induct with
  | case1 => rfl
  | case2 a => rfl
  | case3 a b => rfl
  | case4 a b c rest ih => exact padded_add_four ih

theorem mapM_value? {ns : List Nat} (h : ∀ n ∈ ns, n < 64) :
    (ns.map digit).mapM value? = some ns := by
  induction ns with
  | nil => rfl
  | cons n ns ih =>
      obtain ⟨hn, hns⟩ := List.forall_mem_cons.mp h
      rw [List.map_cons, List.mapM_cons, value?_digit n hn, ih hns]
      rfl

/-- What octets are written as is read as these octets. -/
theorem decode?_encode (os : List UInt8) : decode? (encode os) = some os := by
  have hdigits : ∀ c ∈ (sixes os).map digit, (c != '=') = true := by
    intro c hc
    obtain ⟨n, hn, rfl⟩ := List.mem_map.mp hc
    exact bne_iff_ne.mpr (digit_ne_sign n (lt_of_mem_sixes hn))
  have hsigns : ((List.replicate (signCount os) '=').takeWhile (· != '=')) = [] ∧
      (List.replicate (signCount os) '=').dropWhile (· != '=') =
        List.replicate (signCount os) '=' := by
    cases signCount os with
    | zero => exact ⟨rfl, rfl⟩
    | succ k => exact ⟨rfl, rfl⟩
  have hall : (List.replicate (signCount os) '=').all (· == '=') = true :=
    List.all_eq_true.mpr fun c hc => by rw [List.eq_of_mem_replicate hc]; rfl
  rw [decode?, encode_eq]
  simp only [List.takeWhile_append_of_pos hdigits, List.dropWhile_append_of_pos hdigits, hsigns.1,
    hsigns.2, List.append_nil, List.length_map, List.length_replicate, hall, padded_sixes os,
    Bool.and_self, if_true, mapM_value? fun n hn => lt_of_mem_sixes hn, Option.map_some,
    octets_sixes]

end Rowgate.Base64
