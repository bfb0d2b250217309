import Rowgate.Proofs.Json.RoundTrip
import Rowgate.Proofs.Outcome

/-!
# What can be sent

Only two things keep a value that is not nested too deeply from being sent as JSON: an integral
decimal with too many digits, and a text with half of a surrogate pair in it. A value without such
parts has a JSON text, whatever else it is built from.
-/

namespace Rowgate.Json

open Outcome

/-- Whether a value can be sent if it is not too deep. -/
inductive Sendable : Value → Prop
  | null : Sendable .null
  | bool (b : Bool) : Sendable (.bool b)
  | int (i : Int) : Sendable (.int i)
  | finite {n : Bool} {c : Nat} {e : Int} (h : (Decimal.finite n c e).isIntegral = true →
      digitCount (Decimal.truncate n c e).natAbs ≤ digitLimit) : Sendable (.decimal (.finite n c e))
  | float (f : Binary64) : Sendable (.float f)
  | str {s : String} (h : Text.Whole s.toList) : Sendable (.str s)
  | bytes (octets : List UInt8) : Sendable (.bytes octets)
  | date (d : Date) : Sendable (.date d)
  | dateTime (t : DateTime) : Sendable (.dateTime t)
  | time (t : Time) : Sendable (.time t)
  | list {items : List Value} (h : ∀ v ∈ items, Sendable v) : Sendable (.list items)
  | dict {entries : List (String × Value)} (htexts : ∀ e ∈ entries, Text.Whole e.1.toList)
      (h : ∀ e ∈ entries, Sendable e.2) : Sendable (.dict entries)

/-! ## Writing values in the place of others -/

/-- Values that are written in the same way can take each other's place in a list. -/
theorem renderItems_map {g : Value → Value} {vs : List Value}
    (h : ∀ v ∈ vs, render (g v) = render v) : renderItems (vs.map g) = renderItems vs := by
  induction vs with
  | nil => rfl
  | cons v vs ih =>
      obtain ⟨hv, hvs⟩ := List.forall_mem_cons.mp h
      rw [List.map_cons, renderItems.eq_def, renderItems.eq_def (v :: vs)]
      dsimp only
      cases vs with
      | nil => rw [hv, List.map_nil]
      | cons w vs => rw [hv, ← ih hvs, List.map_cons]

/-- Values that are written in the same way can take each other's place in a dictionary. -/
theorem renderEntries_map {g : Value → Value} {es : List (String × Value)}
    (h : ∀ e ∈ es, render (g e.2) = render e.2) :
    renderEntries (es.map fun e => (e.1, g e.2)) = renderEntries es := by
  induction es with
  | nil => rfl
  | cons e es ih =>
      obtain ⟨k, v⟩ := e
      obtain ⟨hv, hes⟩ := List.forall_mem_cons.mp h
      replace hv : render (g v) = render v := hv
      rw [List.map_cons, renderEntries.eq_def, renderEntries.eq_def ((k, v) :: es)]
      dsimp only
      cases es with
      | nil => rw [hv, List.map_nil]
      | cons w es => rw [hv, ← ih hes, List.map_cons]

/-! ## Success -/

theorem sure_renderItems {vs : List Value} (h : ∀ v ∈ vs, Sure (fun _ => True) (render v)) :
    Sure (fun _ => True) (renderItems vs) := by
  induction vs with
  | nil => exact sure_ok trivial
  | cons v vs ih =>
      obtain ⟨hv, hvs⟩ := List.forall_mem_cons.mp h
      rw [renderItems.eq_def]
      refine hv.bind fun text _ => ?_
      cases vs with
      | nil => exact sure_ok trivial
      | cons w vs => exact (ih hvs).bind fun _ _ => sure_ok trivial

theorem sure_renderEntries {es : List (String × Value)}
    (h : ∀ e ∈ es, Sure (fun _ => True) (render e.2)) :
    Sure (fun _ => True) (renderEntries es) := by
  induction es with
  | nil => exact sure_ok trivial
  | cons e es ih =>
      obtain ⟨k, v⟩ := e
      obtain ⟨hv, hes⟩ := List.forall_mem_cons.mp h
      rw [renderEntries.eq_def]
      refine hv.bind fun text _ => ?_
      cases es with
      | nil => exact sure_ok trivial
      | cons w es => exact (ih hes).bind fun _ _ => sure_ok trivial

theorem sure_decimalText {n : Bool} {c : Nat} {e : Int}
    (h : (Decimal.finite n c e).isIntegral = true →
      digitCount (Decimal.truncate n c e).natAbs ≤ digitLimit) :
    Sure (fun _ => True) (decimalText (.finite n c e)) := by
  by_cases hi : (Decimal.finite n c e).isIntegral = true
  · exact ⟨_, decimalText_of_isIntegral hi (h hi), trivial⟩
  · rw [decimalText, if_neg hi]
    exact sure_ok trivial

theorem Sendable.sure_render {v : Value} (h : Sendable v) : Sure (fun _ => True) (render v) := by
  induction h with
  | finite hd => exact (sure_decimalText hd).map fun _ _ => trivial
  | list _ ih => exact (sure_renderItems ih).map fun _ _ => trivial
  | dict _ _ ih => exact (sure_renderEntries ih).map fun _ _ => trivial
  | _ => exact sure_ok trivial

theorem Sendable.check_eq_ok {v : Value} (h : Sendable v) {depth : Nat} (hdepth : v.depth ≤ depth) :
    check depth v = .ok () := by
  obtain ⟨depth, rfl⟩ : ∃ k, depth = k + 1 := ⟨depth - 1, by have := v.depth_pos; omega⟩
  induction h generalizing depth with
  | str h => exact checkText_of_whole h
  | list _ ih =>
      rw [Value.depth, Nat.add_le_add_iff_right, Value.itemsDepth_le_iff] at hdepth
      rw [check, checkItems_eq_ok_iff]
      intro v hv
      obtain ⟨k, rfl⟩ : ∃ k, depth = k + 1 :=
        ⟨depth - 1, by have := v.depth_pos; have := hdepth v hv; omega⟩
      exact ih v hv k (hdepth v hv)
  | dict htexts _ ih =>
      rw [Value.depth, Nat.add_le_add_iff_right, Value.entriesDepth_le_iff] at hdepth
      rw [check, checkEntries_eq_ok_iff htexts]
      intro e he
      obtain ⟨k, rfl⟩ : ∃ k, depth = k + 1 :=
        ⟨depth - 1, by have := e.2.depth_pos; have := hdepth e he; omega⟩
      exact ih e he k (hdepth e he)
  | _ => rfl

/-- What is read back of a value that can be sent is written as the value. -/
theorem Sendable.render_reread {v : Value} (h : Sendable v) : render v.reread = render v := by
  induction h with
  | @finite n c e hd =>
      rw [Value.reread, Decimal.reread]
      split
      · next hi =>
          rw [render, render, decimalText_of_isIntegral hi (hd hi)]
          rfl
      · rfl
  | list _ ih => rw [Value.reread, Value.rereadItems_eq_map, render, render, renderItems_map ih]
  | dict _ _ ih =>
      rw [Value.reread, Value.rereadEntries_eq_map, render, render, renderEntries_map ih]
  | _ => rfl

/-- A value that can be sent and is not too deep has a JSON text. -/
theorem Sendable.sure_write {v : Value} (h : Sendable v) (hdepth : v.depth ≤ depthLimit) :
    Sure (fun _ => True) (write v) := by
  obtain ⟨text, htext, -⟩ := h.sure_render
  refine ⟨String.ofList text, ?_, trivial⟩
  rw [write, writeWithin, htext]
  show (check depthLimit v).bind _ = _
  rw [h.check_eq_ok hdepth]
  rfl

end Rowgate.Json
