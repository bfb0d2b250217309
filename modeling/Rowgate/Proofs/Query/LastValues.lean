import Rowgate.Proofs.Query.Settled
import Rowgate.Proofs.Store.Rows

/-!
# Queries go by the last values

Reading passes over names that it does not know, and of the values of a part only the last one counts.
So whether parts can be read, and which query they come to, is settled by `said` alone: the order of
the pairs, their repetitions, the spelling of their names and whatever else stands among them do not
matter.

Two facts make this up. Whether a part can be set does not depend on the query that it is set in, so
it can be said of the value alone (`QueryPart.Readable`). And a query has no more in it than what it
answers to each part, so there is only one that answers what is said (`Answers.unique`).
-/

namespace Rowgate

open Outcome

/-- Whether a value can be read as a part of a query. -/
def QueryPart.Readable (part : QueryPart) (v : Value) : Prop :=
  ∃ p, Query.everything.setPart part v = .ok p

namespace Query

variable {q p : Query} {part : QueryPart} {v : Value}

/-! ## Single parts -/

/-- What is read of the value of a part does not depend on the other parts. -/
theorem exists_setPart_of_setPart (h : q.setPart part v = .ok p) (q' : Query) :
    ∃ p', q'.setPart part v = .ok p' := by
  rw [setPart.eq_def] at h
  rw [setPart.eq_def]
  cases part with
  | take | skip =>
      obtain ⟨i, hi, -⟩ := bind_eq_ok.mp h
      exact ⟨_, bind_eq_ok.mpr ⟨i, hi, rfl⟩⟩
  | withCount =>
      obtain ⟨b, hb, -⟩ := bind_eq_ok.mp h
      exact ⟨_, bind_eq_ok.mpr ⟨b, hb, rfl⟩⟩
  | sort =>
      obtain ⟨sort, hsort, -⟩ := bind_eq_ok.mp h
      exact ⟨_, bind_eq_ok.mpr ⟨sort, hsort, rfl⟩⟩
  | filter =>
      obtain ⟨filter, hfilter, -⟩ := bind_eq_ok.mp h
      exact ⟨_, bind_eq_ok.mpr ⟨filter, hfilter, rfl⟩⟩
  | search => exact ⟨_, rfl⟩

theorem readable_of_setPart (h : q.setPart part v = .ok p) : part.Readable v :=
  exists_setPart_of_setPart h everything

/-- Only one query has in every part what is said there. -/
theorem Answers.unique {said : QueryPart → Option Value} (hp : Answers said p)
    (hq : Answers said q) : p = q := by
  have htake : p.take = q.take := Int.ofNat.inj (hp.take.trans hq.take.symm)
  have hskip : p.skip = q.skip := Int.ofNat.inj (hp.skip.trans hq.skip.symm)
  have hcount : p.withCount = q.withCount := hp.withCount.trans hq.withCount.symm
  have hsort : p.sort = q.sort := Except.ok.inj (hp.sort.symm.trans hq.sort)
  have hfilter : p.filter = q.filter := Except.ok.inj (hp.filter.symm.trans hq.filter)
  have hsearch : p.search = q.search := hp.search.trans hq.search.symm
  obtain ⟨take, skip, sort, filter, search, withCount⟩ := p
  subst htake hskip hcount hsort hfilter hsearch
  rfl

/-! ## All parts -/

/-- Parts can be set one after the other exactly if each of them can be read. -/
theorem exists_setParts_iff {parts : Record} (q : Query) :
    (∃ p, setParts q parts = .ok p) ↔
      ∀ (part : QueryPart) (v : Value), (part.name, v) ∈ parts → part.Readable v := by
  induction parts generalizing q with
  | nil => exact ⟨fun _ _ _ hmem => (nomatch hmem), fun _ => ⟨q, rfl⟩⟩
  | cons entry rest ih =>
      obtain ⟨name, v⟩ := entry
      rw [setParts]
      cases hname : QueryPart.ofName? name with
      | none =>
          -- No part has this name, so the first pair asks for nothing.
          have hother : ∀ part : QueryPart, part.name ≠ name := by
            rintro part rfl
            rw [part.ofName?_name] at hname
            cases hname
          refine (ih q).trans (forall_congr' fun part => forall_congr' fun w => ?_)
          refine imp_congr_left ⟨List.mem_cons_of_mem _, fun hmem => ?_⟩
          exact (List.mem_cons.mp hmem).resolve_left fun heq => hother part (Prod.mk.inj heq).1
      | some part =>
          obtain rfl := QueryPart.name_of_ofName? hname
          constructor
          · rintro ⟨p, hp⟩ part' w hmem
            obtain ⟨q', hq', hp⟩ := bind_eq_ok.mp hp
            rcases List.mem_cons.mp hmem with heq | hmem
            · obtain ⟨hpart, rfl⟩ := Prod.mk.inj heq
              obtain rfl := QueryPart.name_injective hpart
              exact readable_of_setPart hq'
            · exact (ih q').mp ⟨p, hp⟩ part' w hmem
          · intro hread
            obtain ⟨_, hpart⟩ := hread part v List.mem_cons_self
            obtain ⟨q', hq'⟩ := exists_setPart_of_setPart hpart q
            obtain ⟨p, hp⟩ := (ih q').mpr fun part' w hmem =>
              hread part' w (List.mem_cons_of_mem _ hmem)
            exact ⟨p, bind_eq_ok.mpr ⟨q', hq', hp⟩⟩

/-- Pairs come to a query exactly if all that is said can be read. -/
theorem exists_ofPairs_iff {pairs : List (String × Value)} (hne : pairs ≠ []) :
    (∃ r, ofPairs pairs = .ok r) ↔
      ∀ part v, said pairs part = some v → part.Readable v := by
  have hnames : (Record.names (normalParts pairs)).Nodup := Record.nodup_ofEntries _
  have hmem : ∀ (part : QueryPart) (v : Value),
      (part.name, v) ∈ normalParts pairs ↔ said pairs part = some v := by
    intro part v
    rw [← field?_normalParts]
    exact ⟨Record.field?_of_mem hnames, Record.mem_of_field?⟩
  have hparts : (∃ q, setParts everything (normalParts pairs) = .ok q) ↔ _ :=
    exists_setParts_iff everything
  simp only [hmem] at hparts
  rw [← hparts, ofPairs_of_ne_nil hne]
  constructor
  · rintro ⟨r, hr⟩
    obtain ⟨q, hq, -⟩ := map_eq_ok hr
    exact ⟨q, hq⟩
  · rintro ⟨q, hq⟩
    exact ⟨some q, by rw [hq]; rfl⟩

/-- What is read goes by the last value of each part. If two lists of pairs say the same of every
part, in whatever order, spelling and company, then what is read of one of them is read of the other
as well. -/
theorem ofPairs_of_said_eq {ps qs : List (String × Value)} (hps : ps ≠ []) (hqs : qs ≠ [])
    (hsaid : ∀ part, said ps part = said qs part) {r : Option Query} (hr : ofPairs ps = .ok r) :
    ofPairs qs = .ok r := by
  have hread := (exists_ofPairs_iff hps).mp ⟨r, hr⟩
  obtain ⟨r', hr'⟩ := (exists_ofPairs_iff hqs).mpr fun part v hv =>
    hread part v ((hsaid part).trans hv)
  rw [hr']
  rw [ofPairs_of_ne_nil hps] at hr
  rw [ofPairs_of_ne_nil hqs] at hr'
  obtain ⟨q, hq, rfl⟩ := map_eq_ok hr
  obtain ⟨q', hq', rfl⟩ := map_eq_ok hr'
  have hanswers : Answers (said qs) q := funext hsaid ▸ answers_of_setParts hq
  rw [(answers_of_setParts hq').unique hanswers]

/-- The last of several pages counts, under any spelling of its name and beside unknown names. -/
theorem ofPairs_of_said_eq_pages :
    ofPairs [("colour", .str "red"), (" TAKE ", .str "20"), ("withCount", .str "true")] =
      .ok (some { everything with take := 20, withCount := true }) := by
  have hplain : ofPairs [("WithCount", .str "true"), ("Take", .str "many"), ("take", .str "20")] =
      .ok (some { everything with take := 20, withCount := true }) := rfl
  have hleft : normalParts [("WithCount", .str "true"), ("Take", .str "many"), ("take", .str "20")] =
      [("withcount", .str "true"), ("take", .str "20")] := by decide +kernel
  have hright : normalParts [("colour", .str "red"), (" TAKE ", .str "20"), ("withCount", .str "true")] =
      [("colour", .str "red"), ("take", .str "20"), ("withcount", .str "true")] := by decide +kernel
  refine ofPairs_of_said_eq (List.cons_ne_nil _ _) (List.cons_ne_nil _ _) (fun part => ?_) hplain
  rw [← field?_normalParts, ← field?_normalParts, hleft, hright]
  cases part <;> rfl

end Query

end Rowgate
