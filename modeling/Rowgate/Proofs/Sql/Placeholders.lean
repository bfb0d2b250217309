import Mathlib.Data.List.Forall2
import Rowgate.Sql.Statement

/-!
# Where the values of a statement go

SQLite marks every slot by a question mark, so a value finds its place by counting. A question mark in
the name of a column or between the quotes of a text is no placeholder; `leads` reads a statement as far
as that matters and gives what stands before each placeholder, from the one before it on.

The reader goes through a word with its eyes on the open quote only. `openAfter` says which quote is open
behind the word, if there is no placeholder in it; words after which none is open can be put together in
any order. Names are such words, whatever they are made of: a name without quotes has letters and digits
only, and a quote in a name between quotes comes twice.

So pieces carry their values to the places they are meant for: each slot has a placeholder, which comes
right behind the words before it. `Carries` says so, and is closed under putting pieces together.
-/

namespace Rowgate.Sql

/-! ## Reading a statement -/

/-- Whether a character starts a part of a statement that is read up to the same character again. -/
def isQuote (c : Char) : Bool := c == '"' || c == '\''

/-- The quote that is open behind a character. -/
def afterChar (quote : Option Char) (c : Char) : Option Char :=
  match quote with
  | some q => if c = q then none else some q
  | none => if isQuote c then some c else none

/-- What stands before each of the placeholders to come, where `read` has been read since the last one. -/
def leadsFrom (quote : Option Char) (read : List Char) : List Char → List (List Char)
  | [] => []
  | c :: cs =>
    if quote = none ∧ c = '?' then read :: leadsFrom none [] cs
    else leadsFrom (afterChar quote c) (read ++ [c]) cs

/-- What stands before each placeholder of a statement, from the one before it on. -/
def leads (sql : String) : List (List Char) := leadsFrom none [] sql.toList

/-- The quote that is open behind some characters, if there is no placeholder among them. -/
def openAfter (quote : Option Char) : List Char → Option (Option Char)
  | [] => some quote
  | c :: cs => if quote = none ∧ c = '?' then none else openAfter (afterChar quote c) cs

theorem openAfter_append (quote : Option Char) (cs ds : List Char) :
    openAfter quote (cs ++ ds) = (openAfter quote cs).bind fun after => openAfter after ds := by
  induction cs generalizing quote with
  | nil => rfl
  | cons c cs ih =>
      rw [List.cons_append, openAfter, openAfter]
      split
      · rfl
      · exact ih _

theorem leadsFrom_of_openAfter {quote after : Option Char} {cs : List Char}
    (h : openAfter quote cs = some after) (read rest : List Char) :
    leadsFrom quote read (cs ++ rest) = leadsFrom after (read ++ cs) rest := by
  induction cs generalizing quote read with
  | nil =>
      cases h
      rw [List.nil_append, List.append_nil]
  | cons c cs ih =>
      rw [openAfter] at h
      split at h
      · cases h
      · next hmark =>
          rw [List.cons_append, leadsFrom, if_neg hmark, ih h, List.append_assoc,
            List.singleton_append]

/-! ## Words without placeholders -/

/-- Whether a word has no placeholder in it and no quote is open behind it. -/
def Quiet (s : String) : Prop := openAfter none s.toList = some none

theorem Quiet.append {s t : String} (hs : Quiet s) (ht : Quiet t) : Quiet (s ++ t) := by
  rw [Quiet, String.toList_append, openAfter_append, hs]
  exact ht

theorem Quiet.join {ws : List String} (h : ∀ w ∈ ws, Quiet w) : Quiet (String.join ws) := by
  rw [Quiet, String.toList_join]
  induction ws with
  | nil => rfl
  | cons w ws ih =>
      obtain ⟨hw, hws⟩ := List.forall_mem_cons.mp h
      rw [List.flatMap_cons, openAfter_append, hw]
      exact ih hws

theorem quiet_listed {texts : List String} (h : ∀ text ∈ texts, Quiet text) :
    Quiet (listed texts) := by
  rw [Quiet, listed, String.toList_intercalate]
  induction texts with
  | nil => rfl
  | cons text texts ih =>
      obtain ⟨htext, htexts⟩ := List.forall_mem_cons.mp h
      cases texts with
      | nil =>
          rw [List.map_singleton, List.intercalate_singleton]
          exact htext
      | cons text' texts =>
          rw [List.map_cons, List.map_cons, List.intercalate_cons_cons, List.append_assoc,
            openAfter_append, htext]
          exact ih htexts

/-! ### Names -/

theorem openAfter_of_plain {cs : List Char} (h : ∀ c ∈ cs, c ≠ '?' ∧ isQuote c = false) :
    openAfter none cs = some none := by
  induction cs with
  | nil => rfl
  | cons c cs ih =>
      obtain ⟨⟨hmark, hquote⟩, hcs⟩ := List.forall_mem_cons.mp h
      rw [openAfter, if_neg fun h => hmark h.2, afterChar, hquote]
      exact ih hcs

theorem plain_of_isNameChar {c : Char} (h : isNameChar c = true) : c ≠ '?' ∧ isQuote c = false := by
  constructor
  · rintro rfl
    revert h
    decide
  · rw [← Bool.not_eq_true, isQuote, Bool.or_eq_true, beq_iff_eq, beq_iff_eq]
    rintro (rfl | rfl) <;> revert h <;> decide

theorem plain_of_isPlainName {cs : List Char} (h : isPlainName cs = true) :
    ∀ c ∈ cs, c ≠ '?' ∧ isQuote c = false := by
  intro c hc
  rw [isPlainName, Bool.and_eq_true, List.all_eq_true] at h
  split at h
  · next hlast =>
      obtain ⟨body, rfl⟩ := List.getLast?_eq_some_iff.mp hlast
      rw [List.dropLast_concat] at h
      rw [List.mem_append, List.mem_singleton] at hc
      cases hc with
      | inl hc => exact plain_of_isNameChar (h.2 c hc)
      | inr hc =>
          rw [hc]
          decide
  · exact plain_of_isNameChar (h.2 c hc)

/-- Behind the body of a name between quotes the first quote is still the open one: one that comes twice
is closed and opened again. -/
theorem openAfter_doubled (cs : List Char) :
    openAfter (some '"') (Text.substitute (fun c => if c = '"' then ['"', '"'] else [c]) cs) =
      some (some '"') := by
  induction cs with
  | nil => rfl
  | cons c cs ih =>
      rw [Text.substitute, List.flatMap_cons, openAfter_append]
      by_cases hc : c = '"'
      · rw [if_pos hc]
        exact ih
      · have hopen : openAfter (some '"') [c] = some (some '"') := by
          rw [openAfter, if_neg fun h => nomatch h.1]
          exact congrArg some (if_neg hc)
        rw [if_neg hc, hopen]
        exact ih

theorem quiet_spell (d : Dialect) (name : String) : Quiet (d.spell name) := by
  rw [Dialect.spell]
  split
  · rw [Quiet, Dialect.quoted, String.toList_ofList, List.cons_append]
    show openAfter (some '"') _ = some none
    rw [openAfter_append, openAfter_doubled]
    rfl
  · next hquotes =>
      refine openAfter_of_plain (plain_of_isPlainName ?_)
      rw [Dialect.needsQuotes] at hquotes
      revert hquotes
      cases isPlainName name.toList <;> simp

variable {d : Dialect} {t : Table}

theorem quiet_path (d : Dialect) (t : Table) : Quiet (t.path d) := by
  rw [Table.path]
  split
  · split
    · exact quiet_spell d _
    · exact ((quiet_spell d _).append (t := ".") rfl).append (quiet_spell d _)
  · exact quiet_spell d _

theorem quiet_columnPath (d : Dialect) (t : Table) (c : Column) : Quiet (t.columnPath d c) :=
  ((quiet_path d t).append (t := ".") rfl).append (quiet_spell d _)

theorem quiet_namedColumn (d : Dialect) (t : Table) (c : Column) : Quiet (namedColumn d t c) :=
  ((quiet_columnPath d t c).append (t := " AS ") rfl).append (quiet_spell d _)

theorem quiet_choiceWords {spelled : Column → String} (h : ∀ c, Quiet (spelled c))
    (columns : List Column) : Quiet (choiceWords spelled columns) := by
  rw [choiceWords]
  split
  · rfl
  · refine Quiet.append rfl (quiet_listed fun text htext => ?_)
    obtain ⟨c, -, rfl⟩ := List.mem_map.mp htext
    exact h c

theorem quiet_orderText (first : Column) (order : Order) : Quiet (orderText d t first order) := by
  rw [orderText]
  split
  · exact quiet_columnPath d t first
  · refine quiet_listed fun text htext => ?_
    obtain ⟨⟨c, direction⟩, -, rfl⟩ := List.mem_map.mp htext
    refine (quiet_columnPath d t c).append ?_
    cases direction <;> rfl

/-! ## Pieces and the places of their values -/

/-- A value that a statement is given, and what is to stand right before its placeholder. -/
structure Binding where
  lead : String
  value : Value

/-- Whether each placeholder, of which `found` has what stands before it, comes behind the lead of its
value. -/
def Follow (found : List (List Char)) (bs : List Binding) : Prop :=
  List.Forall₂ (fun read b => b.lead.toList <:+ read) found bs

/-- Whether pieces have slots for some values in their order, and the text of the pieces has placeholders
for these, each right behind the lead of its value, and no others. No name matters for the text. -/
structure Carries (ps : List Piece) (bs : List Binding) : Prop where
  values : Piece.values ps = bs.map (·.value)
  steady : ∀ n n', Dialect.sqlite.text n ps = Dialect.sqlite.text n' ps
  places : ∀ (n : Naming) (read rest : List Char), ∃ found read',
    leadsFrom none read ((Dialect.sqlite.text n ps).toList ++ rest) =
      found ++ leadsFrom none read' rest ∧ Follow found bs

/-- What has been named after some pieces. -/
def Naming.after (n : Naming) : List Piece → Naming
  | [] => n
  | .slot stem _ :: ps => (n.next stem).after ps
  | .label stem :: ps => (n.next stem).after ps
  | _ :: ps => n.after ps

theorem Dialect.text_append (d : Dialect) (n : Naming) (ps qs : List Piece) :
    d.text n (ps ++ qs) = d.text n ps ++ d.text (n.after ps) qs := by
  induction ps generalizing n with
  | nil => exact String.empty_append.symm
  | cons p ps ih => cases p <;> simp [Dialect.text, Naming.after, ih, String.append_assoc]

namespace Carries

variable {ps qs : List Piece} {bs cs : List Binding}

theorem text_append (h : Carries qs cs) (n : Naming) :
    Dialect.sqlite.text n (ps ++ qs) = Dialect.sqlite.text n ps ++ Dialect.sqlite.text n qs := by
  rw [Dialect.text_append, h.steady (n.after ps) n]

theorem nil : Carries [] [] where
  values := rfl
  steady _ _ := rfl
  places _ read _ := ⟨[], read, rfl, List.Forall₂.nil⟩

theorem words {s : String} (h : Quiet s) : Carries [.words s] [] where
  values := rfl
  steady _ _ := rfl
  places n read rest := by
    have htext : Dialect.sqlite.text n [.words s] = s := String.append_empty
    rw [htext]
    exact ⟨[], _, leadsFrom_of_openAfter h read rest, List.Forall₂.nil⟩

theorem append (h : Carries ps bs) (h' : Carries qs cs) : Carries (ps ++ qs) (bs ++ cs) where
  values := by rw [Piece.values_append, h.values, h'.values, List.map_append]
  steady n n' := by rw [h'.text_append, h'.text_append, h.steady n n', h'.steady n n']
  places n read rest := by
    obtain ⟨found, read', hfound, hfollow⟩ :=
      h.places n read ((Dialect.sqlite.text n qs).toList ++ rest)
    obtain ⟨found', read'', hfound', hfollow'⟩ := h'.places n read' rest
    refine ⟨found ++ found', read'', ?_, List.rel_append hfollow hfollow'⟩
    rw [h'.text_append, String.toList_append, List.append_assoc, hfound, hfound', List.append_assoc]

theorem cons_words (h : Carries ps bs) {s : String} (hs : Quiet s) :
    Carries (.words s :: ps) bs := (words hs).append h

theorem concat_words (h : Carries ps bs) {s : String} (hs : Quiet s) :
    Carries (ps ++ [.words s]) bs := by
  have happend := h.append (words hs)
  rwa [List.append_nil] at happend

theorem text_words_slot (ws : List String) (n : Naming) (stem : String) (v : Value) :
    Dialect.sqlite.text n (ws.map .words ++ [.slot stem v]) = String.join ws ++ "?" := by
  induction ws with
  | nil => rfl
  | cons w ws ih =>
      rw [List.map_cons, List.cons_append, Dialect.text, ih, ← String.append_assoc]
      refine congrArg (· ++ "?") (String.toList_inj.mp ?_)
      rw [String.toList_append, String.toList_join, String.toList_join, List.flatMap_cons]

/-- The placeholder of a slot comes behind all of the words before it. -/
theorem slot {ws : List String} (h : ∀ w ∈ ws, Quiet w) (stem : String) (v : Value) :
    Carries (ws.map .words ++ [.slot stem v]) [⟨String.join ws, v⟩] where
  values := by
    rw [Piece.values_append]
    induction ws with
    | nil => rfl
    | cons w ws ih => exact ih (List.forall_mem_cons.mp h).2
  steady n n' := by rw [text_words_slot, text_words_slot]
  places n read rest := by
    refine ⟨[read ++ (String.join ws).toList], [], ?_,
      List.Forall₂.cons (List.suffix_append _ _) .nil⟩
    rw [text_words_slot, String.toList_append, List.append_assoc,
      leadsFrom_of_openAfter (Quiet.join h)]
    rfl

end Carries

/-- Whether the placeholders of a fragment and its parameters are those of some values, in their order,
each placeholder right behind the lead of its value. -/
structure Fragment.Binds (f : Fragment) (bs : List Binding) : Prop where
  parameters : f.parameters = bs.map (·.value)
  places : Follow (leads f.sql) bs

theorem Carries.follow {ps : List Piece} {bs : List Binding} (h : Carries ps bs) {s : String}
    (hs : Quiet s) (n : Naming) : Follow (leads (s ++ Dialect.sqlite.text n ps)) bs := by
  obtain ⟨found, read, hfound, hfollow⟩ := h.places n s.toList []
  rw [List.append_nil, leadsFrom, List.append_nil] at hfound
  rw [leads, String.toList_append, leadsFrom_of_openAfter hs, List.nil_append, hfound]
  exact hfollow

theorem Carries.binds {ps : List Piece} {bs : List Binding} (h : Carries ps bs) :
    (Dialect.sqlite.render ps).Binds bs where
  parameters := h.values
  places := by
    have hfollow := h.follow (s := "") rfl .fresh
    rwa [String.empty_append] at hfollow

/-- There are as many placeholders as parameters. -/
theorem Fragment.Binds.length_eq {f : Fragment} {bs : List Binding} (h : f.Binds bs) :
    (leads f.sql).length = f.parameters.length := by
  rw [h.parameters, List.length_map]
  exact h.places.length_eq

end Rowgate.Sql
