import Rowgate.Proofs.Encoding.Form
import Rowgate.Proofs.Gateway.Serving
import Mathlib.Data.List.Forall2

/-!
# Requests that a gateway takes on

A gateway decides twice whether a request is one for it: when it is asked beforehand, and when it is
given the request. What decides is said here without a route: `Below` takes a path apart into a root and
what comes after it, and `StandsFor` says which of several entities a name stands for. There is nothing
at a path if it leads nowhere under the root, or to an entity that does not exist (`Absent`); then both
answers are no. Else the first answer is yes, and the second one is no only to a request for records that
does not come with a method that may be used (`Request.Barred`).
-/

namespace Rowgate

/-! ## Paths -/

/-- Whether a path is made of some segments: it is pieces with slashes between them, and the segments are
those that are not empty. -/
def MadeOf (path : String) (parts : List String) : Prop :=
  ∃ pieces : List (List Char), pieces ≠ [] ∧ (∀ piece ∈ pieces, '/' ∉ piece) ∧
    path.toList = Text.joinWith ['/'] pieces ∧
    parts = (pieces.filter fun piece => !piece.isEmpty).map String.ofList

/-- Whether some segments are what a path has below a root, which may be written in any letter case. -/
def Below (root : List String) (path : String) (rest : List String) : Prop :=
  ∃ head, MadeOf path (head ++ rest) ∧
    List.Forall₂ (fun s t => Text.lowercase s = Text.lowercase t) head root

section Paths

variable {root parts rest : List String} {path : String}

theorem madeOf_iff : MadeOf path parts ↔ segments path = parts := by
  constructor
  · rintro ⟨pieces, hne, hnone, hpath, rfl⟩
    rw [segments, hpath, Text.splitAtChar_joinWith hne hnone]
  · rintro rfl
    exact ⟨Text.splitAtChar '/' path.toList, Text.splitAtChar_ne_nil _ _,
      fun _ h => Text.not_mem_of_mem_splitAtChar h, (Text.joinWith_splitAtChar _ _).symm, rfl⟩

theorem forall₂_lowercase_iff {head : List String} :
    List.Forall₂ (fun s t => Text.lowercase s = Text.lowercase t) head root ↔
      head.map Text.lowercase = root.map Text.lowercase := by
  rw [← List.forall₂_eq_eq_eq, List.forall₂_map_left_iff, List.forall₂_map_right_iff]

theorem below_iff :
    Below root path rest ↔
      ((segments path).take root.length).map Text.lowercase = root.map Text.lowercase ∧
        (segments path).drop root.length = rest := by
  constructor
  · rintro ⟨head, hpath, hhead⟩
    rw [madeOf_iff.mp hpath, ← hhead.length_eq, List.take_left, List.drop_left]
    exact ⟨forall₂_lowercase_iff.mp hhead, rfl⟩
  · rintro ⟨hhead, rfl⟩
    exact ⟨_, madeOf_iff.mpr (List.take_append_drop _ _).symm, forall₂_lowercase_iff.mpr hhead⟩

end Paths

namespace Route

/-- Whether a path leads to a route under a root. -/
inductive Leads (root : List String) (path : String) : Route → Prop
  | entities (h : Below root path [metadataSegment]) : Leads root path .entities
  | metadata {name : String} (h : Below root path [name, metadataSegment]) :
      Leads root path (.metadata name)
  | records {name : String} (h : Below root path [name]) (hname : name ≠ metadataSegment) :
      Leads root path (.records name)

/-- The segment of a route that names an entity. -/
def name? : Route → Option String
  | .entities => none
  | .metadata name => some name
  | .records name => some name

variable {root : List String} {path : String} {route : Route}

theorem ofRest?_eq_some_iff {rest : List String} :
    ofRest? rest = some route ↔
      (rest = [metadataSegment] ∧ route = .entities) ∨
        (∃ name, rest = [name, metadataSegment] ∧ route = .metadata name) ∨
          ∃ name, rest = [name] ∧ name ≠ metadataSegment ∧ route = .records name := by
  match rest with
  | [] => simp [ofRest?]
  | [s] => by_cases h : s = metadataSegment <;> simp [ofRest?, h, eq_comm]
  | [s, t] => by_cases h : t = metadataSegment <;> simp [ofRest?, h, eq_comm]
  | s :: t :: u :: rest => simp [ofRest?]

theorem ofPath?_eq_some_iff : ofPath? root path = some route ↔ Leads root path route := by
  have hbelow : ofPath? root path = some route ↔
      ∃ rest, Below root path rest ∧ ofRest? rest = some route := by
    rw [ofPath?]
    simp only [below_iff]
    split
    · next h =>
        exact ⟨fun hrest => ⟨_, ⟨h, rfl⟩, hrest⟩, fun ⟨_, ⟨_, heq⟩, hrest⟩ => heq ▸ hrest⟩
    · next h => exact iff_of_false nofun fun ⟨_, ⟨hroot, _⟩, _⟩ => h hroot
  rw [hbelow]
  constructor
  · rintro ⟨rest, h, hrest⟩
    rcases ofRest?_eq_some_iff.mp hrest with
      ⟨rfl, rfl⟩ | ⟨name, rfl, rfl⟩ | ⟨name, rfl, hname, rfl⟩
    · exact .entities h
    · exact .metadata h
    · exact .records h hname
  · intro h
    cases h with
    | entities h => exact ⟨_, h, ofRest?_eq_some_iff.mpr (.inl ⟨rfl, rfl⟩)⟩
    | metadata h => exact ⟨_, h, ofRest?_eq_some_iff.mpr (.inr (.inl ⟨_, rfl, rfl⟩))⟩
    | records h hname => exact ⟨_, h, ofRest?_eq_some_iff.mpr (.inr (.inr ⟨_, rfl, hname, rfl⟩))⟩

theorem ofPath?_eq_none_iff : ofPath? root path = none ↔ ∀ route, ¬ Leads root path route := by
  rw [Option.eq_none_iff_forall_ne_some]
  exact forall_congr' fun route => not_congr ofPath?_eq_some_iff

end Route

/-! ## Names -/

/-- Whether something is the first member of a list with a property. -/
def FirstWith {α : Type} (P : α → Prop) (xs : List α) (x : α) : Prop :=
  P x ∧ ∃ before after, xs = before ++ x :: after ∧ ∀ y ∈ before, ¬ P y

/-- Whether a name stands for something among things with names. What has the name in any letter case goes
first, wherever it is in the list, and what has it only without separators comes after that. -/
inductive StandsFor {α : Type} (nameOf : α → String) (xs : List α) (wanted : String) (x : α) : Prop
  | whole (h : FirstWith (fun y => Text.lowercase (nameOf y) = Text.lowercase wanted) xs x)
  | stripped (hnone : ∀ y ∈ xs, Text.lowercase (nameOf y) ≠ Text.lowercase wanted)
      (h : FirstWith
        (fun y => Text.lowercase (stripSeparators (nameOf y)) = Text.lowercase wanted) xs x)

section Names

variable {α : Type} {xs : List α} {x : α}

theorem find?_eq_some_iff_firstWith {f : α → String} {s : String} :
    (xs.find? fun y => f y == s) = some x ↔ FirstWith (fun y => f y = s) xs x := by
  rw [List.find?_eq_some_iff_append, FirstWith]
  simp

theorem resolve_eq_some_iff {nameOf : α → String} {wanted : String} :
    resolve nameOf xs wanted = some x ↔ StandsFor nameOf xs wanted x := by
  rw [resolve]
  cases hfirst : xs.find? fun y => Text.lowercase (nameOf y) == Text.lowercase wanted with
  | some y =>
      have hy := find?_eq_some_iff_firstWith.mp hfirst
      rw [Option.orElse_some, Option.some_inj]
      constructor
      · rintro rfl
        exact .whole hy
      · rintro (hx | ⟨hnone, -⟩)
        · rw [find?_eq_some_iff_firstWith.mpr hx] at hfirst
          exact (Option.some_inj.mp hfirst).symm
        · exact absurd hy.1 (hnone y (List.mem_of_find?_eq_some hfirst))
  | none =>
      have hnone : ∀ y ∈ xs, Text.lowercase (nameOf y) ≠ Text.lowercase wanted := fun y hy => by
        simpa using List.find?_eq_none.mp hfirst y hy
      rw [Option.orElse_none, find?_eq_some_iff_firstWith]
      refine ⟨fun h => .stripped hnone h, ?_⟩
      rintro (⟨hx, before, after, rfl, -⟩ | ⟨-, h⟩)
      · exact absurd hx (hnone x (List.mem_append_right _ List.mem_cons_self))
      · exact h

theorem resolve_eq_none_iff {nameOf : α → String} {wanted : String} :
    resolve nameOf xs wanted = none ↔ ∀ x, ¬ StandsFor nameOf xs wanted x := by
  rw [Option.eq_none_iff_forall_ne_some]
  exact forall_congr' fun x => not_congr resolve_eq_some_iff

end Names

/-! ## Methods -/

namespace Method

theorem spellsCapitals_unique {s : String} {m n : Method} (hm : Text.spellsCapitals s m.name = true)
    (hn : Text.spellsCapitals s n.name = true) : m = n := by
  rw [Text.spellsCapitals, beq_iff_eq] at hm hn
  have hname : m.name = n.name := String.toList_inj.mp (hm.symm.trans hn)
  revert hname
  cases m <;> cases n <;> decide

theorem mem_all (m : Method) : m ∈ all := by cases m <;> decide

theorem ofName?_eq_some_iff {s : String} {m : Method} :
    ofName? s = some m ↔ Text.spellsCapitals s m.name = true := by
  have hspelled : ∀ {n : Method}, ofName? s = some n → Text.spellsCapitals s n.name = true := by
    intro n hn
    have hfound := List.find?_some hn
    exact hfound
  refine ⟨hspelled, fun h => ?_⟩
  cases hfound : ofName? s with
  | none => exact absurd h (List.find?_eq_none.mp hfound m m.mem_all)
  | some n => rw [spellsCapitals_unique h (hspelled hfound)]

theorem ofName?_eq_none_iff {s : String} :
    ofName? s = none ↔ ∀ m : Method, Text.spellsCapitals s m.name = false := by
  rw [Option.eq_none_iff_forall_ne_some]
  exact forall_congr' fun m => by rw [ne_eq, ofName?_eq_some_iff, Bool.not_eq_true]

theorem isWrite_iff {m : Method} : m.isWrite = true ↔ m ≠ .get := by cases m <;> decide

end Method

/-- Whether a request may not be made of a resource: its method is spelled like none of the five, or like
one that writes, and the resource is read-only. -/
def Request.Barred (r : Request) (resource : Resource) : Prop :=
  (∀ m : Method, Text.spellsCapitals r.method m.name = false) ∨
    resource.readOnly = true ∧ ∃ m : Method, m ≠ .get ∧ Text.spellsCapitals r.method m.name = true

/-! ## Requests -/

/-- Whether a name stands for a resource among others. -/
abbrev Named (all : List Resource) (name : String) (resource : Resource) : Prop :=
  StandsFor (fun x : Resource => x.entity.name) all name resource

/-- Whether there is nothing at a path: it leads nowhere under a root, or to an entity whose name stands
for none of some resources. -/
inductive Absent (root : List String) (all : List Resource) (path : String) : Prop
  | nowhere (h : ∀ route, ¬ Route.Leads root path route)
  | unknown {route : Route} {name : String} (h : Route.Leads root path route)
      (hname : route.name? = some name) (hnone : ∀ resource, ¬ Named all name resource)

namespace Gateway

variable {g : Gateway} {p : Premises} {r : Request} {resource : Resource} {all : List Resource}

theorem result_find (h : (g.resources.run p).2.result = .ok all) (name : String) :
    ((g.find name).run p).2.result = .ok (resolve (fun x => x.entity.name) all name) := by
  rw [find, Work.result_run_bind, h]
  rfl

theorem offer_eq_none_iff :
    ((offer resource r).run p).2.result = .ok none ↔ r.Barred resource := by
  rw [offer, Request.Barred, ← Method.ofName?_eq_none_iff]
  cases hmethod : Method.ofName? r.method with
  | none => exact iff_of_true rfl (.inl rfl)
  | some method =>
      have hspelled := Method.ofName?_eq_some_iff.mp hmethod
      have hwrites : (∃ m : Method, m ≠ .get ∧ Text.spellsCapitals r.method m.name = true) ↔
          method.isWrite = true := by
        rw [Method.isWrite_iff]
        refine ⟨?_, fun h => ⟨_, h, hspelled⟩⟩
        rintro ⟨m, hm, h⟩
        exact Method.spellsCapitals_unique h hspelled ▸ hm
      rw [hwrites]
      dsimp only
      split
      · next h =>
          rw [Bool.and_eq_true] at h
          exact iff_of_true rfl (.inr h.symm)
      · next h =>
          rw [Bool.and_eq_true] at h
          exact iff_of_false (Work.result_bind_some_ne_none _ _ p)
            fun hbarred => h (hbarred.resolve_left (Option.some_ne_none method)).symm

theorem result_canServe (h : (g.resources.run p).2.result = .ok all) {path : String} {route : Route}
    (hroute : Route.Leads g.root path route) :
    ((g.canServe path).run p).2.result =
      .ok (route.name?.all fun name => (resolve (fun x => x.entity.name) all name).isSome) := by
  rw [canServe, Route.ofPath?_eq_some_iff.mpr hroute]
  cases route with
  | entities => rfl
  | metadata name | records name =>
      dsimp only
      rw [Work.result_run_bind, result_find h]
      rfl

/-- What is answered where there is something at a path. -/
theorem handle_eq_none_iff (h : (g.resources.run p).2.result = .ok all)
    (hthere : ¬ Absent g.root all r.path) :
    ((g.handle r).run p).2.result = .ok none ↔
      ∃ name resource, Route.Leads g.root r.path (.records name) ∧ Named all name resource ∧
        r.Barred resource := by
  rw [handle]
  cases hroute : Route.ofPath? g.root r.path with
  | none => exact absurd (.nowhere (Route.ofPath?_eq_none_iff.mp hroute)) hthere
  | some route =>
      have hleads := Route.ofPath?_eq_some_iff.mp hroute
      have honly : ∀ {other}, Route.Leads g.root r.path other → other = route := fun hother =>
        Option.some_inj.mp ((Route.ofPath?_eq_some_iff.mpr hother).symm.trans hroute)
      have hfound : ∀ name, route.name? = some name →
          ∃ resource, resolve (fun x : Resource => x.entity.name) all name = some resource := by
        intro name hname
        rw [← Option.ne_none_iff_exists']
        exact fun hnone => hthere (.unknown hleads hname (resolve_eq_none_iff.mp hnone))
      cases route with
      | entities =>
          dsimp only
          rw [Work.result_run_bind, h]
          refine iff_of_false (Work.result_bind_some_ne_none _ _ _) ?_
          rintro ⟨_, _, hother, -⟩
          cases honly hother
      | metadata name =>
          obtain ⟨resource, hresource⟩ := hfound name rfl
          dsimp only
          rw [Work.result_run_bind, result_find h, hresource]
          refine iff_of_false (Work.result_bind_some_ne_none _ _ _) ?_
          rintro ⟨_, _, hother, -⟩
          cases honly hother
      | records name =>
          obtain ⟨resource, hresource⟩ := hfound name rfl
          dsimp only
          rw [Work.result_run_bind, result_find h, hresource]
          refine offer_eq_none_iff.trans ⟨fun hbarred =>
            ⟨name, resource, hleads, resolve_eq_some_iff.mp hresource, hbarred⟩, ?_⟩
          rintro ⟨name', resource', hother, hstands, hbarred⟩
          cases honly hother
          cases (resolve_eq_some_iff.mpr hstands).symm.trans hresource
          exact hbarred

/-- Where there is nothing at a path, a gateway says so beforehand and leaves the request to others. -/
theorem result_of_absent (h : (g.resources.run p).2.result = .ok all)
    (habsent : Absent g.root all r.path) :
    ((g.canServe r.path).run p).2.result = .ok false ∧
      ((g.handle r).run p).2.result = .ok none := by
  cases habsent with
  | nowhere hnowhere =>
      rw [canServe, handle, Route.ofPath?_eq_none_iff.mpr hnowhere]
      exact ⟨rfl, rfl⟩
  | @unknown route name hleads hname hnone =>
      have hresolve := resolve_eq_none_iff.mpr hnone
      constructor
      · rw [result_canServe h hleads, hname, Option.all_some, hresolve]
        rfl
      · rw [handle, Route.ofPath?_eq_some_iff.mpr hleads]
        cases route with
        | entities => cases hname
        | metadata name' | records name' =>
            cases hname
            dsimp only
            rw [Work.result_run_bind, result_find h, hresolve]
            rfl

theorem result_canServe_of_not_absent (h : (g.resources.run p).2.result = .ok all) {path : String}
    (hthere : ¬ Absent g.root all path) : ((g.canServe path).run p).2.result = .ok true := by
  cases hroute : Route.ofPath? g.root path with
  | none => exact absurd (.nowhere (Route.ofPath?_eq_none_iff.mp hroute)) hthere
  | some route =>
      have hleads := Route.ofPath?_eq_some_iff.mp hroute
      rw [result_canServe h hleads, Except.ok.injEq, Option.all_eq_true]
      intro name hname
      rw [← Option.ne_none_iff_isSome]
      exact fun hnone => hthere (.unknown hleads hname (resolve_eq_none_iff.mp hnone))

/-- Where it is known which resources there are, a gateway says beforehand that it cannot answer a path
exactly if there is nothing at the path, and leaves such requests to others. It leaves any other request
to others exactly if it is one for the records of a resource that may not be made of it. The resource that
a name stands for is the first one that has the name in any letter case, or if there is none, the first
one that has it without separators. -/
theorem takes_on (h : (g.resources.run p).2.result = .ok all) (r : Request) :
    (((g.canServe r.path).run p).2.result = .ok false ↔ Absent g.root all r.path) ∧
    (Absent g.root all r.path → ((g.handle r).run p).2.result = .ok none) ∧
    (¬ Absent g.root all r.path →
      ((g.canServe r.path).run p).2.result = .ok true ∧
      (((g.handle r).run p).2.result = .ok none ↔
        ∃ name resource, Route.Leads g.root r.path (.records name) ∧ Named all name resource ∧
          r.Barred resource)) ∧
    ∀ name resource,
      ((g.find name).run p).2.result = .ok (some resource) ↔ Named all name resource := by
  refine ⟨⟨fun hno => ?_, fun habsent => (result_of_absent h habsent).1⟩,
    fun habsent => (result_of_absent h habsent).2,
    fun hthere => ⟨result_canServe_of_not_absent h hthere, handle_eq_none_iff h hthere⟩,
    fun name resource => ?_⟩
  · by_contra hthere
    rw [result_canServe_of_not_absent h hthere] at hno
    cases hno
  · rw [result_find h, Except.ok.injEq, resolve_eq_some_iff]

/-- An entity without fields. -/
def account (name : String) (readOnly : Bool) : Entity := ⟨name, none, readOnly, []⟩

/-- The premises of a gateway to two entities that have the same name but for separators, and the
gateway. The second entity is read-only. -/
def accounts : Premises × Gateway :=
  Premises.openGateway
    ⟨[⟨"hr", .files ⟨[.empty (account "USER_ACCOUNT" false), .empty (account "UserAccount" true)],
      Operator.all, true, 0⟩⟩], []⟩
    "api/hr" .camel 0 .nan none

/-- The resources of the two entities. -/
def accountResources : List Resource :=
  [.file 0 0 (account "USER_ACCOUNT" false), .file 0 1 (account "UserAccount" true)]

/-- A request to change an account. -/
def accountChange : Request := ⟨"patch", "//Api/HR//userACCOUNT/", "", .absent⟩

theorem takes_on_accounts :
    (accounts.2.resources.run accounts.1).2.result = .ok accountResources ∧
      Named accountResources "userACCOUNT" (.file 0 1 (account "UserAccount" true)) ∧
      ((accounts.2.canServe accountChange.path).run accounts.1).2.result = .ok true ∧
      ((accounts.2.handle accountChange).run accounts.1).2.result = .ok none := by
  have h : (accounts.2.resources.run accounts.1).2.result = .ok accountResources := by rfl
  obtain ⟨hno, -, hthere, hfind⟩ := takes_on h accountChange
  have hyes : ((accounts.2.canServe accountChange.path).run accounts.1).2.result = .ok true := by rfl
  have hnot : ¬ Absent accounts.2.root accountResources accountChange.path := fun habsent =>
    nomatch (hno.mpr habsent).symm.trans hyes
  -- the first entity would do without separators, but the second one has the very name
  have hnamed := (hfind "userACCOUNT" (.file 0 1 (account "UserAccount" true))).mp (by rfl)
  have hleads : Route.Leads accounts.2.root accountChange.path (.records "userACCOUNT") :=
    Route.ofPath?_eq_some_iff.mp (by decide +kernel)
  refine ⟨h, hnamed, hyes, (hthere hnot).2.mpr ⟨_, _, hleads, hnamed, .inr ⟨rfl, .patch, ?_⟩⟩⟩
  decide +kernel

end Gateway

end Rowgate
