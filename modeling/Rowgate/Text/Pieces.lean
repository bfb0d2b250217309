/-!
# Parts of a text

Splitting at a separator, replacing one character by a text, and finding one text inside another,
all on lists of characters. `joinWith_splitAtChar` and `not_mem_of_mem_splitAtChar` say that
splitting at a character loses nothing and splits wherever it can.
-/

namespace Rowgate.Text

/-- The pieces between the occurrences of one character; there is one piece more than there are
occurrences. -/
def splitAtChar (sep : Char) : List Char → List (List Char)
  | [] => [[]]
  | c :: rest =>
    if c = sep then [] :: splitAtChar sep rest
    else
      match splitAtChar sep rest with
      | [] => [[c]]
      | piece :: pieces => (c :: piece) :: pieces

/-- The rest of `cs` after `start`, if `cs` begins with it. -/
def dropStart? : (start : List Char) → (cs : List Char) → Option (List Char)
  | [], cs => some cs
  | _ :: _, [] => none
  | s :: start, c :: cs => if s = c then dropStart? start cs else none

theorem dropStart?_length {start cs rest : List Char} (h : dropStart? start cs = some rest) :
    rest.length + start.length = cs.length := by
  induction start generalizing cs with
  | nil => simp [dropStart?] at h; simp [h]
  | cons s start ih =>
    cases cs with
    | nil => simp [dropStart?] at h
    | cons c cs =>
      simp only [dropStart?] at h
      split at h
      · have := ih h; simp only [List.length_cons]; omega
      · simp at h

/-- The text before the first occurrence of `sep` and the text after it. -/
def splitOnce? (sep : List Char) : List Char → Option (List Char × List Char)
  | [] => if sep.isEmpty then some ([], []) else none
  | c :: rest =>
    match dropStart? sep (c :: rest) with
    | some after => some ([], after)
    | none => (splitOnce? sep rest).map fun (before, after) => (c :: before, after)

theorem splitOnce?_length {sep cs before after : List Char}
    (h : splitOnce? sep cs = some (before, after)) :
    before.length + sep.length + after.length = cs.length := by
  induction cs generalizing before with
  | nil =>
    simp only [splitOnce?] at h
    split at h
    · rename_i hs; simp only [List.isEmpty_iff] at hs; simp_all
    · simp at h
  | cons c rest ih =>
    simp only [splitOnce?] at h
    split at h
    · rename_i heq
      simp only [Option.some.injEq, Prod.mk.injEq] at h
      have := dropStart?_length heq
      obtain ⟨rfl, rfl⟩ := h
      simp only [List.length_nil, List.length_cons] at *
      omega
    · simp only [Option.map_eq_some_iff, Prod.exists, Prod.mk.injEq] at h
      obtain ⟨b, a, hb, rfl, rfl⟩ := h
      have := ih hb
      simp only [List.length_cons]
      omega

/-- The pieces between the occurrences of a separator, found from the left. An empty separator
separates nothing. -/
def splitOn (sep : List Char) (cs : List Char) : List (List Char) :=
  match h : splitOnce? sep cs with
  | none => [cs]
  | some (before, after) =>
    if hs : sep = [] then [cs]
    else
      have : after.length < cs.length := by
        have h₁ := splitOnce?_length h
        have h₂ : 0 < sep.length := List.length_pos_iff.2 hs
        omega
      before :: splitOn sep after
termination_by cs.length

/-- Whether `part` occurs in the text. -/
def occursIn (part : List Char) : List Char → Bool
  | [] => part.isEmpty
  | c :: rest => part.isPrefixOf (c :: rest) || occursIn part rest

/-- The text with every `c` written as `image c`. -/
def substitute (image : Char → List Char) (cs : List Char) : List Char := cs.flatMap image

/-- The texts one after the other with `sep` between neighbours. -/
def joinWith (sep : List Char) : List (List Char) → List Char
  | [] => []
  | [piece] => piece
  | piece :: pieces => piece ++ sep ++ joinWith sep pieces

theorem splitAtChar_ne_nil (sep : Char) (cs : List Char) : splitAtChar sep cs ≠ [] := by
  cases cs with
  | nil => simp [splitAtChar]
  | cons c rest =>
    rw [splitAtChar]
    split
    · simp
    · split <;> simp

/-- The pieces with the separator between neighbours are the text again. -/
theorem joinWith_splitAtChar (sep : Char) (cs : List Char) :
    joinWith [sep] (splitAtChar sep cs) = cs := by
  induction cs with
  | nil => rfl
  | cons c rest ih =>
    rw [splitAtChar]
    cases h : splitAtChar sep rest with
    | nil => exact absurd h (splitAtChar_ne_nil sep rest)
    | cons piece pieces =>
      rw [h] at ih
      by_cases hc : c = sep
      · rw [if_pos hc, joinWith, ih, hc]
        · rfl
        · simp
      · rw [if_neg hc]
        cases pieces with
        | nil => simpa [joinWith] using ih
        | cons p ps => simpa [joinWith] using ih

/-- No piece holds the separator. -/
theorem not_mem_of_mem_splitAtChar {sep : Char} {cs piece : List Char}
    (h : piece ∈ splitAtChar sep cs) : sep ∉ piece := by
  induction cs generalizing piece with
  | nil => simp_all [splitAtChar]
  | cons c rest ih =>
    rw [splitAtChar] at h
    by_cases hc : c = sep
    · rw [if_pos hc] at h
      rcases List.mem_cons.1 h with rfl | h
      · simp
      · exact ih h
    · rw [if_neg hc] at h
      cases hs : splitAtChar sep rest with
      | nil => exact absurd hs (splitAtChar_ne_nil sep rest)
      | cons p ps =>
        rw [hs] at h ih
        rcases List.mem_cons.1 h with rfl | h
        · have := ih (List.mem_cons_self ..)
          simp [this, Ne.symm hc]
        · exact ih (List.mem_cons_of_mem _ h)

end Rowgate.Text
