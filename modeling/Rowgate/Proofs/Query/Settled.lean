import Rowgate.Proofs.Json.Acceptance
import Rowgate.Proofs.Outcome
import Rowgate.Proofs.Value.Literal
import Rowgate.Proofs.Value.Portable
import Rowgate.Query.Reader

/-!
# What becomes of a query

Whatever the named parts of a query hold, reading them gives a query that answers them, or none if
there are no parts, or a fault that says what is wrong with a filter or an order. Each part is read
from the last value that is given for it, and a page or a mark that is no number and no truth value
leaves what holds without it.

What no reading is forgiving about is a value that hinders it (`QueryPart.Hinders`): an infinity
where a page is counted, an integer that has no text where a word is expected, and JSON that goes
beyond the limits of its reader.
-/

namespace Rowgate

open Outcome

/-! ## Single parts -/

namespace QueryPart

theorem name_of_ofName? {s : String} {part : QueryPart} (h : ofName? s = some part) :
    part.name = s := by
  rw [ofName?] at h
  have hfound := List.find?_some h
  exact beq_iff_eq.mp hfound

theorem name_injective {p q : QueryPart} (h : p.name = q.name) : p = q := by
  revert h
  cases p <;> cases q <;> decide

theorem ofName?_name (part : QueryPart) : ofName? part.name = some part := by
  cases part <;> rfl

/-- Whether the reading of a part stops at a value because it is too large for it. -/
def Hinders : QueryPart → Value → Prop
  | .take, v => (∃ n, v = .decimal (.infinite n)) ∨ ∃ n, v = .float (.infinite n)
  | .skip, v => (∃ n, v = .decimal (.infinite n)) ∨ ∃ n, v = .float (.infinite n)
  | .withCount, v => v.HasLongInteger
  | .sort, v => ∃ s, v = .str s ∧ Json.Hindered s.toList
  | .filter, v => ∃ s, v = .str s ∧ Json.Hindered s.toList
  | .search, _ => False

end QueryPart

namespace Query

/-- Whether a fault says what is wrong with a filter or an order. -/
def IsFilterFault (f : Fault) : Prop :=
  (∃ part messages, f = partFault part messages) ∨ ∃ name, f = .unknownOperator name Operator.names

theorem not_isFilterFault_of_isLimit {f : Fault} (h : f.IsLimit) : ¬ IsFilterFault f := by
  rintro (⟨part, messages, rfl⟩ | ⟨name, rfl⟩)
  · exact h
  · exact h

theorem wholeNumber_eq_error_iff {v : Value} {f : Fault} :
    wholeNumber v = .error f ↔ f = .infinite ∧
      ((∃ n, v = .decimal (.infinite n)) ∨ ∃ n, v = .float (.infinite n)) := by
  constructor
  · intro h
    cases v with
    | decimal d =>
        cases d with
        | infinite n =>
            cases h
            exact ⟨rfl, Or.inl ⟨n, rfl⟩⟩
        | finite => cases h
        | nan => cases h
    | float x =>
        cases x with
        | infinite n =>
            cases h
            exact ⟨rfl, Or.inr ⟨n, rfl⟩⟩
        | nan => cases h
        | finite n m q =>
            rw [wholeNumber, Binary64.toDecimal] at h
            split at h <;> cases h
    | _ => cases h
  · rintro ⟨rfl, ⟨n, rfl⟩ | ⟨n, rfl⟩⟩
    · rfl
    · rfl

/-- The reading of a mark stops exactly at a value without a text. -/
theorem truthWord_eq_error_iff {v : Value} :
    (∃ f, truthWord v = .error f) ↔ v.HasLongInteger := by
  rw [← Value.plainText_eq_error_iff, truthWord.eq_def]
  split
  · exact ⟨nofun, nofun⟩
  · cases v.plainText with
    | ok s => exact ⟨nofun, nofun⟩
    | error fault => exact ⟨fun _ => ⟨fault, rfl⟩, fun _ => ⟨_, rfl⟩⟩

theorem isLimit_of_truthWord {v : Value} {f : Fault} (h : truthWord v = .error f) : f.IsLimit := by
  rw [truthWord.eq_def] at h
  split at h
  · cases h
  · split at h
    · cases h
    · cases h
      exact trivial

/-- The JSON text of a part is not read because it is malformed or because it is hindered. -/
theorem loadPart_eq_error {part : QueryPart} {v : Value} {f : Fault}
    (h : loadPart part v = .error f) :
    IsFilterFault f ∨ ∃ s, v = .str s ∧ Json.Hindered s.toList := by
  cases v with
  | str s =>
      rw [loadPart] at h
      split at h
      · cases h
      · cases hread : Json.read s.toList with
        | ok v =>
            rw [hread] at h
            cases h
        | error r =>
            rw [hread] at h
            cases h
            cases hmalformed : r.isMalformed with
            | true =>
                rw [Fault.ofRefusal_of_malformed hmalformed]
                exact Or.inl (Or.inl ⟨part, _, rfl⟩)
            | false =>
                exact Or.inr ⟨s, rfl, Json.read_hindered_iff.mpr ⟨r, hread, hmalformed⟩⟩
  | _ => cases h

theorem loadPart_of_hindered (part : QueryPart) {s : String} (h : Json.Hindered s.toList) :
    ∃ f, loadPart part (.str s) = .error f ∧ f.IsLimit := by
  obtain ⟨r, hread, hlimit⟩ := Json.read_hindered_iff.mp h
  have hne : s.isEmpty ≠ true := by
    intro hempty
    rw [String.isEmpty_iff.mp hempty] at hread
    cases hread
    cases hlimit
  refine ⟨_, ?_, Fault.isLimit_ofRefusal hlimit fun reason => partFault part [reason]⟩
  rw [loadPart, if_neg hne, hread]
  rfl

theorem isFilterFault_of_checkPart {α : Type} {part : QueryPart} {c : Shape.Checked α} {f : Fault}
    (h : checkPart part c = .error f) : IsFilterFault f := by
  cases c with
  | ok a => cases h
  | error r =>
      cases r with
      | problems ps =>
          cases h
          exact Or.inl ⟨part, _, rfl⟩
      | unknownOperator name =>
          cases h
          exact Or.inr ⟨name, rfl⟩

theorem isFilterFault_of_readKeys {vs : List Value} {f : Fault} (h : readKeys vs = .error f) :
    IsFilterFault f := by
  induction vs with
  | nil => cases h
  | cons v vs ih =>
      rw [readKeys] at h
      rcases bind_eq_error.mp h with hkey | ⟨k, _, h⟩
      · exact isFilterFault_of_checkPart hkey
      · rcases bind_eq_error.mp h with hkeys | ⟨ks, _, h⟩
        · exact ih hkeys
        · cases h

theorem readSort_eq_error {v : Value} {f : Fault} (h : readSort v = .error f) :
    IsFilterFault f ∨ ∃ s, v = .str s ∧ Json.Hindered s.toList := by
  rw [readSort] at h
  rcases bind_eq_error.mp h with hload | ⟨loaded, _, h⟩
  · exact loadPart_eq_error hload
  · refine Or.inl ?_
    split at h
    · cases h
    · exact isFilterFault_of_readKeys h
    · cases h
      exact Or.inl ⟨.sort, _, rfl⟩

theorem readFilter_eq_error {v : Value} {f : Fault} (h : readFilter v = .error f) :
    IsFilterFault f ∨ ∃ s, v = .str s ∧ Json.Hindered s.toList := by
  rw [readFilter] at h
  rcases bind_eq_error.mp h with hload | ⟨loaded, _, h⟩
  · exact loadPart_eq_error hload
  · refine Or.inl ?_
    split at h
    · cases h
    · exact isFilterFault_of_checkPart (map_eq_error.mp h)
    · cases h
      exact Or.inl ⟨.filter, _, rfl⟩

/-- A part is not read because it is faulty or because its value hinders that. -/
theorem setPart_eq_error {q : Query} {part : QueryPart} {v : Value} {f : Fault}
    (h : q.setPart part v = .error f) : IsFilterFault f ∨ part.Hinders v := by
  rw [setPart.eq_def] at h
  cases part with
  | take | skip =>
      rcases bind_eq_error.mp h with hread | ⟨i, _, h⟩
      · exact Or.inr (wholeNumber_eq_error_iff.mp hread).2
      · cases h
  | withCount =>
      rcases bind_eq_error.mp h with hread | ⟨b, _, h⟩
      · exact Or.inr (truthWord_eq_error_iff.mp ⟨f, hread⟩)
      · cases h
  | sort =>
      rcases bind_eq_error.mp h with hread | ⟨sort, _, h⟩
      · exact readSort_eq_error hread
      · cases h
  | filter =>
      rcases bind_eq_error.mp h with hread | ⟨filter, _, h⟩
      · exact readFilter_eq_error hread
      · cases h
  | search => cases h

/-- A value that hinders the reading of a part ends it with a fault that says nothing of a filter. -/
theorem setPart_of_hinders {part : QueryPart} {v : Value} (h : part.Hinders v) (q : Query) :
    ∃ f, q.setPart part v = .error f ∧ ¬ IsFilterFault f := by
  have hinfinite : ¬ IsFilterFault .infinite := by
    rintro (⟨part, messages, ⟨⟩⟩ | ⟨name, ⟨⟩⟩)
  rw [setPart.eq_def]
  cases part with
  | take | skip =>
      refine ⟨.infinite, ?_, hinfinite⟩
      rw [wholeNumber_eq_error_iff.mpr ⟨rfl, h⟩]
      rfl
  | withCount =>
      obtain ⟨f, hf⟩ := truthWord_eq_error_iff.mpr h
      exact ⟨f, by rw [hf]; rfl, not_isFilterFault_of_isLimit (isLimit_of_truthWord hf)⟩
  | sort =>
      obtain ⟨s, rfl, hs⟩ := h
      obtain ⟨f, hf, hlimit⟩ := loadPart_of_hindered .sort hs
      exact ⟨f, by rw [readSort, hf]; rfl, not_isFilterFault_of_isLimit hlimit⟩
  | filter =>
      obtain ⟨s, rfl, hs⟩ := h
      obtain ⟨f, hf, hlimit⟩ := loadPart_of_hindered .filter hs
      exact ⟨f, by rw [readFilter, hf]; rfl, not_isFilterFault_of_isLimit hlimit⟩
  | search => cases h

/-! ## All parts -/

/-- The integer that a part says, if it says one. -/
def numberIn (v : Option Value) : Option Int := v.bind fun v => (wholeNumber v).toOption.join

/-- The truth value that a part says, if it says one. -/
def markIn (v : Option Value) : Option Bool := v.bind fun v => (truthWord v).toOption.join

/-- A query has in every part what is said there, and what holds without it where nothing is. -/
structure Answers (said : QueryPart → Option Value) (q : Query) : Prop where
  take : (q.take : Int) = max 0 ((numberIn (said .take)).getD 0)
  skip : (q.skip : Int) = max 0 ((numberIn (said .skip)).getD 0)
  withCount : q.withCount = (markIn (said .withCount)).getD false
  sort : ((said .sort).map readSort).getD (.ok []) = .ok q.sort
  filter : ((said .filter).map readFilter).getD (.ok none) = .ok q.filter
  search : q.search = ((said .search).map fun v => if v.isTrue then v else .null).getD .null

theorem answers_everything : Answers (fun _ => none) everything := ⟨rfl, rfl, rfl, rfl, rfl, rfl⟩

/-- What is said when one more part is. -/
def saying (said : QueryPart → Option Value) (part : QueryPart) (v : Value) :
    QueryPart → Option Value := fun other => if other = part then some v else said other

theorem numberIn_some {v : Value} {i : Option Int} (h : wholeNumber v = .ok i) :
    numberIn (some v) = i := by
  rw [numberIn, Option.bind_some, h]
  rfl

theorem markIn_some {v : Value} {b : Option Bool} (h : truthWord v = .ok b) :
    markIn (some v) = b := by
  rw [markIn, Option.bind_some, h]
  rfl

/-- A query answers one more part that is set in it. -/
theorem Answers.setPart {said : QueryPart → Option Value} {q p : Query} (h : Answers said q)
    {part : QueryPart} (hnone : said part = none) {v : Value} (hp : q.setPart part v = .ok p) :
    Answers (saying said part v) p := by
  rw [Query.setPart.eq_def] at hp
  cases part with
  | take =>
      obtain ⟨i, hi, hp⟩ := bind_eq_ok.mp hp
      have hread : numberIn (saying said .take v .take) = i := numberIn_some hi
      cases i with
      | none =>
          cases hp
          refine ⟨?_, h.skip, h.withCount, h.sort, h.filter, h.search⟩
          rw [hread, h.take, hnone]
          rfl
      | some i =>
          cases hp
          refine ⟨?_, h.skip, h.withCount, h.sort, h.filter, h.search⟩
          rw [hread]
          exact (Int.toNat_eq_max i).trans (max_comm i 0)
  | skip =>
      obtain ⟨i, hi, hp⟩ := bind_eq_ok.mp hp
      have hread : numberIn (saying said .skip v .skip) = i := numberIn_some hi
      cases i with
      | none =>
          cases hp
          refine ⟨h.take, ?_, h.withCount, h.sort, h.filter, h.search⟩
          rw [hread, h.skip, hnone]
          rfl
      | some i =>
          cases hp
          refine ⟨h.take, ?_, h.withCount, h.sort, h.filter, h.search⟩
          rw [hread]
          exact (Int.toNat_eq_max i).trans (max_comm i 0)
  | withCount =>
      obtain ⟨b, hb, hp⟩ := bind_eq_ok.mp hp
      cases hp
      refine ⟨h.take, h.skip, ?_, h.sort, h.filter, h.search⟩
      show b.getD q.withCount = (markIn (some v)).getD false
      rw [markIn_some hb, h.withCount, hnone]
      rfl
  | sort =>
      obtain ⟨sort, hsort, hp⟩ := bind_eq_ok.mp hp
      cases hp
      exact ⟨h.take, h.skip, h.withCount, hsort, h.filter, h.search⟩
  | filter =>
      obtain ⟨filter, hfilter, hp⟩ := bind_eq_ok.mp hp
      cases hp
      exact ⟨h.take, h.skip, h.withCount, h.sort, hfilter, h.search⟩
  | search =>
      cases hp
      exact ⟨h.take, h.skip, h.withCount, h.sort, h.filter, rfl⟩

/-- A query answers the parts that are set in it, each of which was not set before. -/
theorem Answers.setParts {parts : Record} (hnames : (Record.names parts).Nodup)
    {said : QueryPart → Option Value}
    (hnone : ∀ part, part.name ∈ Record.names parts → said part = none) {q p : Query}
    (h : Answers said q) (hp : setParts q parts = .ok p) :
    Answers (fun part => (said part).or (Record.field? parts part.name)) p := by
  induction parts generalizing said q with
  | nil =>
      cases hp
      have hsaid : (fun part => (said part).or (Record.field? [] part.name)) = said :=
        funext fun part => Option.or_none
      rwa [hsaid]
  | cons entry rest ih =>
      obtain ⟨name, v⟩ := entry
      have hnodup : name ∉ Record.names rest ∧ (Record.names rest).Nodup :=
        List.nodup_cons.mp hnames
      rw [Query.setParts] at hp
      cases hname : QueryPart.ofName? name with
      | none =>
          rw [hname] at hp
          have hrest := ih hnodup.2 (fun part hmem => hnone part (List.mem_cons_of_mem _ hmem)) h hp
          have hskip : ∀ part : QueryPart,
              Record.field? ((name, v) :: rest) part.name = Record.field? rest part.name := by
            intro part
            rw [Record.field?, if_neg]
            rintro rfl
            rw [part.ofName?_name] at hname
            cases hname
          simpa only [hskip] using hrest
      | some part =>
          rw [hname] at hp
          obtain ⟨q', hq', hp⟩ := bind_eq_ok.mp hp
          obtain rfl := QueryPart.name_of_ofName? hname
          have hpart := hnone part List.mem_cons_self
          have hfresh : ∀ other : QueryPart, other.name ∈ Record.names rest →
              saying said part v other = none := by
            intro other hmem
            rw [saying, if_neg]
            · exact hnone other (List.mem_cons_of_mem _ hmem)
            · rintro rfl
              exact hnodup.1 hmem
          have hrest := ih hnodup.2 hfresh (h.setPart hpart hq') hp
          have hsaid : ∀ other : QueryPart,
              (saying said part v other).or (Record.field? rest other.name) =
                (said other).or (Record.field? ((part.name, v) :: rest) other.name) := by
            intro other
            rw [saying, Record.field?]
            by_cases hother : other = part
            · rw [hother, if_pos rfl, if_pos rfl, hpart]
              rfl
            · rw [if_neg hother, if_neg fun heq => hother (QueryPart.name_injective heq.symm)]
          simpa only [hsaid] using hrest

/-- Parts are not set because one of them is not. -/
theorem setParts_eq_error {parts : Record} {q : Query} {f : Fault}
    (h : setParts q parts = .error f) :
    ∃ (part : QueryPart) (v : Value) (p : Query), (part.name, v) ∈ parts ∧
      p.setPart part v = .error f := by
  induction parts generalizing q with
  | nil => cases h
  | cons entry rest ih =>
      obtain ⟨name, v⟩ := entry
      have hrest : ∀ {p : Query}, setParts p rest = .error f → ∃ (part : QueryPart) (w : Value)
          (p' : Query), (part.name, w) ∈ (name, v) :: rest ∧ p'.setPart part w = .error f := by
        intro p hp
        obtain ⟨part, w, p', hmem, hpart⟩ := ih hp
        exact ⟨part, w, p', List.mem_cons_of_mem _ hmem, hpart⟩
      rw [setParts] at h
      cases hname : QueryPart.ofName? name with
      | none =>
          rw [hname] at h
          exact hrest h
      | some part =>
          rw [hname] at h
          rcases bind_eq_error.mp h with hpart | ⟨p, -, h⟩
          · obtain rfl := QueryPart.name_of_ofName? hname
            exact ⟨part, v, q, List.mem_cons_self, hpart⟩
          · exact hrest h

/-! ## Whole queries -/

/-- What is said of a part: the last value that is given for it under any spelling of its name. -/
def said (pairs : List (String × Value)) (part : QueryPart) : Option Value :=
  Record.lastNamed (pairs.map fun (name, v) => (normalName name, v)) part.name

theorem field?_normalParts (pairs : List (String × Value)) (part : QueryPart) :
    Record.field? (normalParts pairs) part.name = said pairs part :=
  Record.field?_ofEntries _ _

theorem normalParts_ne_nil {pairs : List (String × Value)} (h : pairs ≠ []) :
    normalParts pairs ≠ [] := by
  cases pairs with
  | nil => exact absurd rfl h
  | cons pair pairs =>
      obtain ⟨name, v⟩ := pair
      intro hnil
      have hlast := Record.field?_ofEntries
        (((name, v) :: pairs).map fun (name, v) => (normalName name, v)) (normalName name)
      have hparts : Record.ofEntries
          (((name, v) :: pairs).map fun (name, v) => (normalName name, v)) = [] := hnil
      rw [hparts, List.map_cons, Record.lastNamed, if_pos rfl] at hlast
      cases hrest : Record.lastNamed (pairs.map fun (name, v) => (normalName name, v))
          (normalName name) with
      | none =>
          rw [hrest] at hlast
          cases hlast
      | some w =>
          rw [hrest] at hlast
          cases hlast

theorem ofPairs_of_ne_nil {pairs : List (String × Value)} (h : pairs ≠ []) :
    ofPairs pairs = (setParts everything (normalParts pairs)).map some := by
  rw [ofPairs]
  split
  · next heq => exact absurd heq (normalParts_ne_nil h)
  · rfl

/-- A query into which named parts were set answers them. -/
theorem answers_of_setParts {pairs : List (String × Value)} {q : Query}
    (h : setParts everything (normalParts pairs) = .ok q) : Answers (said pairs) q := by
  have hanswers : Answers (fun part => none.or (Record.field? (normalParts pairs) part.name)) q :=
    answers_everything.setParts (Record.nodup_ofEntries _) (fun _ _ => rfl) h
  simpa only [Option.none_or, field?_normalParts] using hanswers

/-- Whether a value that is given for a part hinders its reading. -/
def Hindered (pairs : List (String × Value)) : Prop :=
  ∃ part v, said pairs part = some v ∧ part.Hinders v

/-- What the outcome of reading named parts has to be: no query if there are none, a query that
answers them, or a fault that says what is wrong with a filter or an order. -/
def Settled (pairs : List (String × Value)) : Except Fault (Option Query) → Prop
  | .ok none => pairs = []
  | .ok (some q) => pairs ≠ [] ∧ Answers (said pairs) q
  | .error f => IsFilterFault f

theorem settled_of_not_hindered {pairs : List (String × Value)} (h : ¬ Hindered pairs) :
    Settled pairs (ofPairs pairs) := by
  by_cases hnil : pairs = []
  · subst hnil
    exact rfl
  · have hnames : (Record.names (normalParts pairs)).Nodup := Record.nodup_ofEntries _
    rw [ofPairs_of_ne_nil hnil]
    cases hset : setParts everything (normalParts pairs) with
    | ok q => exact ⟨hnil, answers_of_setParts hset⟩
    | error f =>
        obtain ⟨part, v, p, hmem, hpart⟩ := setParts_eq_error hset
        refine (setPart_eq_error hpart).resolve_right fun hhinders => h ⟨part, v, ?_, hhinders⟩
        rw [← field?_normalParts, Record.field?_of_mem hnames hmem]

/-- What is said of a part in a query string is a text. -/
theorem str_of_said_pairsOf {s : String} {part : QueryPart} {v : Value}
    (h : said (pairsOf s) part = some v) : ∃ t, v = .str t := by
  have hmem := Record.mem_of_lastNamed h
  rw [pairsOf, List.map_map] at hmem
  obtain ⟨pair, -, heq⟩ := List.mem_map.mp hmem
  exact ⟨pair.2, (Prod.mk.inj heq).2.symm⟩

/-- In a query string nothing hinders the reading but the JSON text of an order or a filter. -/
theorem hindered_pairsOf_iff {s : String} :
    Hindered (pairsOf s) ↔ ∃ t : String, Json.Hindered t.toList ∧
      (said (pairsOf s) .sort = some (.str t) ∨ said (pairsOf s) .filter = some (.str t)) := by
  constructor
  · rintro ⟨part, v, hsaid, hhinders⟩
    obtain ⟨t, rfl⟩ := str_of_said_pairsOf hsaid
    cases part with
    | take | skip =>
        rcases hhinders with ⟨_, heq⟩ | ⟨_, heq⟩
        · cases heq
        · cases heq
    | withCount => cases hhinders
    | sort =>
        obtain ⟨_, ⟨⟩, ht⟩ := hhinders
        exact ⟨t, ht, Or.inl hsaid⟩
    | filter =>
        obtain ⟨_, ⟨⟩, ht⟩ := hhinders
        exact ⟨t, ht, Or.inr hsaid⟩
    | search => cases hhinders
  · rintro ⟨t, ht, hsaid | hsaid⟩
    · exact ⟨.sort, .str t, hsaid, t, rfl, ht⟩
    · exact ⟨.filter, .str t, hsaid, t, rfl, ht⟩

/-- Named parts that do not hinder their reading, and a query string of such parts, come to no query,
to one that answers them, or to a fault about a filter or an order. -/
theorem queries_settled (pairs : List (String × Value)) (s : String) :
    (¬ Hindered pairs → Settled pairs (ofPairs pairs)) ∧
    ((∀ t : String, said (pairsOf s) .sort = some (.str t) ∨
        said (pairsOf s) .filter = some (.str t) → ¬ Json.Hindered t.toList) →
      Settled (pairsOf s) (ofText s)) := by
  refine ⟨settled_of_not_hindered, fun hs => settled_of_not_hindered fun h => ?_⟩
  obtain ⟨t, ht, hsaid⟩ := hindered_pairsOf_iff.mp h
  exact hs t hsaid ht

/-- A page that is no number is passed over. -/
theorem queries_settled_unread :
    Settled [("Take", .str "many")] (ofPairs [("Take", .str "many")]) := by
  refine (queries_settled _ "").1 ?_
  rintro ⟨part, v, hsaid, hhinders⟩
  obtain ⟨hname, rfl⟩ := Prod.mk.inj (List.mem_singleton.mp (Record.mem_of_lastNamed hsaid))
  cases part with
  | take =>
      rcases hhinders with ⟨_, heq⟩ | ⟨_, heq⟩
      · cases heq
      · cases heq
  | skip | withCount | sort | filter | search => exact absurd hname (by decide)

/-- A value that hinders the reading of a part is not passed over, where it is alone. -/
theorem not_settled_of_hinders {part : QueryPart} {v : Value} (h : part.Hinders v) :
    ¬ Settled [(part.name, v)] (ofPairs [(part.name, v)]) := by
  obtain ⟨f, hf, hfault⟩ := setPart_of_hinders h everything
  have hread : ofPairs [(part.name, v)] = .error f := by
    have hname : normalName part.name = part.name := by
      cases part <;> rfl
    show ((setParts everything [(normalName part.name, v)]).map some) = .error f
    rw [hname, setParts, part.ofName?_name]
    show ((everything.setPart part v).bind _).map some = .error f
    rw [hf]
    rfl
  rw [hread]
  exact hfault

/-- An infinite page is settled in no way: it is neither read nor passed over. -/
theorem infinite_page_not_settled :
    ¬ Settled [("take", .float (.infinite false))]
      (ofPairs [("take", .float (.infinite false))]) := by
  have hinfinite : QueryPart.take.Hinders (.float (.infinite false)) := Or.inr ⟨false, rfl⟩
  exact not_settled_of_hinders hinfinite

end Query

end Rowgate
