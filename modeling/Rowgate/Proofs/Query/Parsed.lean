import Rowgate.Proofs.Entity.Form
import Rowgate.Proofs.Filter.Tidied
import Rowgate.Proofs.Outcome
import Rowgate.Query.Reader

/-!
# What a query has that was read

Reading leaves a query with less freedom than a client has: every test of its filter names a field and
an operator, and its search is a text with something in it, or null. Both hold of the query for
everything, and each part of a query string keeps them.
-/

namespace Rowgate

open Outcome Shape

/-! ## Filters -/

theorem Shape.within_eq_ok {α : Type} {key : String} {c : Checked α} {a : α}
    (h : within key c = .ok a) : c = .ok a := by
  cases c with
  | ok b => exact h
  | error r => cases r <;> cases h

theorem Shape.both_eq_ok {α β : Type} {c : Checked α} {d : Checked β} {x : α × β}
    (h : both c d = .ok x) : c = .ok x.1 ∧ d = .ok x.2 := by
  cases c with
  | ok a =>
      cases d with
      | ok b =>
          cases h
          exact ⟨rfl, rfl⟩
      | error r => cases r <;> cases h
  | error r =>
      cases d with
      | ok b => cases r <;> cases h
      | error r' => cases r <;> cases r' <;> cases h

namespace Filter

variable {f : Filter} {depth : Nat} {ms : List (Option Filter)}

/-- A node that is read has the members that were read for it, and says what it tests if it has
none. -/
theorem ofParts_eq_ok {r : Record} {members : Checked (List (Option Filter))}
    (h : ofParts r members = .ok f) :
    ∃ t logic ms, members = .ok ms ∧ complete t ms = true ∧ f = .node t logic ms := by
  rw [ofParts] at h
  obtain ⟨⟨field, operator, value, ignoreCase, logic, ms⟩, hparts, h⟩ := bind_eq_ok.mp h
  dsimp only at h
  split at h
  · next hcomplete =>
      cases h
      have hmembers :=
        (both_eq_ok (both_eq_ok (both_eq_ok (both_eq_ok (both_eq_ok hparts).2).2).2).2).2
      exact ⟨_, logic, ms, hmembers, hcomplete, rfl⟩
  · cases h

theorem complete_of_leaf {t : Test} (h : complete t [] = true) : t.Complete := by
  simpa [complete, Test.Complete] using h

theorem mem_membersFrom {P : Filter → Prop} (hP : ∀ v f, nodeOf depth v = .ok f → P f)
    {vs : List Value} {i : Nat} (h : membersFrom depth i vs = .ok ms) :
    ∀ f, some f ∈ ms → P f := by
  induction vs generalizing i ms with
  | nil =>
      cases h
      exact fun _ hf => nomatch hf
  | cons v vs ih =>
      rw [membersFrom] at h
      obtain ⟨⟨m, rest⟩, hboth, h⟩ := bind_eq_ok.mp h
      cases h
      obtain ⟨hm, hrest⟩ := both_eq_ok hboth
      intro f hf
      rcases List.mem_cons.mp hf with rfl | hf
      · replace hm := within_eq_ok hm
        split at hm
        · cases hm
        · obtain ⟨g, hg, heq⟩ := map_eq_ok hm
          cases heq
          exact hP v f hg
      · exact ih hrest f hf

theorem mem_membersIn {P : Filter → Prop} (hP : ∀ v f, nodeOf depth v = .ok f → P f)
    {entries : List (String × Value)} (h : membersIn depth entries = .ok ms) :
    ∀ f, some f ∈ ms → P f := by
  induction entries with
  | nil =>
      cases h
      exact fun _ hf => nomatch hf
  | cons entry entries ih =>
      obtain ⟨name, v⟩ := entry
      rw [membersIn] at h
      split at h
      · replace h := within_eq_ok h
        cases v with
        | list vs => exact mem_membersFrom hP h
        | _ => cases h
      · exact ih h

/-- Every test of a filter that is read names a field and an operator. -/
theorem complete_nodeOf {v : Value} (h : nodeOf depth v = .ok f) : f.AllTests Test.Complete := by
  induction depth generalizing v f with
  | zero =>
      rw [nodeOf] at h
      cases h
  | succ depth ih =>
      cases v with
      | dict entries =>
          rw [nodeOf] at h
          obtain ⟨t, logic, ms, hms, hcomplete, rfl⟩ := ofParts_eq_ok h
          cases ms with
          | nil => exact .leaf logic (complete_of_leaf hcomplete)
          | cons m ms =>
              exact .group t logic (List.cons_ne_nil m ms) (mem_membersIn (fun _ _ => ih) hms)
      | _ => cases h

end Filter

/-! ## Queries -/

namespace Query

/-- What is known of every query that was read from a query string. -/
structure Parsed (q : Query) : Prop where
  filter : ∀ f, q.filter = some f → f.AllTests Test.Complete
  search : q.search = .null ∨ ∃ s, q.search = .str s ∧ s ≠ ""

theorem parsed_everything : everything.Parsed := ⟨fun _ h => (nomatch h), .inl rfl⟩

theorem complete_readFilter {v : Value} {filter : Option Filter} (h : readFilter v = .ok filter) :
    ∀ f, filter = some f → f.AllTests Test.Complete := by
  rintro f rfl
  obtain ⟨loaded, -, h⟩ := bind_eq_ok.mp h
  cases loaded with
  | dict entries =>
      obtain ⟨g, hg, heq⟩ := map_eq_ok h
      cases heq
      rw [checkPart] at hg
      cases hread : Filter.ofValue (.dict entries) with
      | error r =>
          rw [hread] at hg
          cases hg
      | ok g =>
          rw [hread] at hg
          cases hg
          exact Filter.complete_nodeOf hread
  | _ => cases h

theorem Parsed.setPart {q p : Query} (h : q.Parsed) {part : QueryPart} {s : String}
    (hp : q.setPart part (.str s) = .ok p) : p.Parsed := by
  rw [Query.setPart.eq_def] at hp
  cases part with
  | take | skip =>
      obtain ⟨i, -, hp⟩ := bind_eq_ok.mp hp
      cases i <;> cases hp <;> exact ⟨h.filter, h.search⟩
  | withCount | sort =>
      obtain ⟨b, -, hp⟩ := bind_eq_ok.mp hp
      cases hp
      exact ⟨h.filter, h.search⟩
  | filter =>
      obtain ⟨filter, hfilter, hp⟩ := bind_eq_ok.mp hp
      cases hp
      exact ⟨complete_readFilter hfilter, h.search⟩
  | search =>
      cases hp
      refine ⟨h.filter, ?_⟩
      show (if _ then _ else _) = _ ∨ _
      split
      · next htrue =>
          refine .inr ⟨s, rfl, ?_⟩
          rintro rfl
          exact absurd htrue (by decide)
      · exact .inl rfl

/-- Whether the values of named parts are texts, as those of a query string are. -/
def AreTexts (parts : Record) : Prop := ∀ entry ∈ parts, ∃ s, entry.2 = .str s

theorem Parsed.setParts {parts : Record} (htexts : AreTexts parts) {q p : Query} (h : q.Parsed)
    (hp : setParts q parts = .ok p) : p.Parsed := by
  induction parts generalizing q with
  | nil =>
      cases hp
      exact h
  | cons entry rest ih =>
      obtain ⟨name, v⟩ := entry
      obtain ⟨⟨s, rfl⟩, hrest⟩ := List.forall_mem_cons.mp htexts
      rw [Query.setParts] at hp
      cases hname : QueryPart.ofName? name with
      | none =>
          rw [hname] at hp
          exact ih hrest h hp
      | some part =>
          rw [hname] at hp
          obtain ⟨q', hq', hp⟩ := bind_eq_ok.mp hp
          exact ih hrest (h.setPart hq') hp

theorem areTexts_set {parts : Record} (h : AreTexts parts) (name s : String) :
    AreTexts (Record.set parts name (.str s)) := by
  induction parts with
  | nil => exact List.forall_mem_singleton.mpr ⟨s, rfl⟩
  | cons first rest ih =>
      obtain ⟨k, v⟩ := first
      obtain ⟨hv, hrest⟩ := List.forall_mem_cons.mp h
      rw [Record.set]
      split
      · exact List.forall_mem_cons.mpr ⟨⟨s, rfl⟩, hrest⟩
      · exact List.forall_mem_cons.mpr ⟨hv, ih hrest⟩

theorem areTexts_normalParts {pairs : List (String × Value)} (h : AreTexts pairs) :
    AreTexts (normalParts pairs) := by
  have hfold : ∀ (entries acc : Record), AreTexts entries → AreTexts acc →
      AreTexts (entries.foldl (fun r e => Record.set r e.1 e.2) acc) := by
    intro entries
    induction entries with
    | nil => exact fun acc _ hacc => hacc
    | cons entry entries ih =>
        obtain ⟨name, v⟩ := entry
        intro acc hentries hacc
        obtain ⟨⟨s, rfl⟩, hrest⟩ := List.forall_mem_cons.mp hentries
        exact ih _ hrest (areTexts_set hacc name s)
  refine hfold _ [] ?_ fun _ hentry => nomatch hentry
  exact List.forall_mem_map.mpr h

/-- A query that was read from a query string. -/
theorem parsed_ofText {text : String} {q : Query} (h : ofText text = .ok (some q)) : q.Parsed := by
  have htexts : AreTexts (normalParts (pairsOf text)) := by
    refine areTexts_normalParts ?_
    rw [pairsOf]
    exact List.forall_mem_map.mpr fun pair _ => ⟨pair.2, rfl⟩
  rw [ofText, ofPairs] at h
  split at h
  · cases h
  · next parts hne =>
      obtain ⟨p, hp, heq⟩ := map_eq_ok h
      cases heq
      exact parsed_everything.setParts htexts hp

end Query

end Rowgate
