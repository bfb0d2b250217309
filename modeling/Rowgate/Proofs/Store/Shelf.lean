import Rowgate.Proofs.Store.KeyEquality
import Rowgate.Proofs.Store.Unchanged

/-!
# The dictionary of a file

The records of a file are kept in a dictionary. A record that takes the place of another one is put
under the key that is there, so a key can be older than its record and need not be spelled like the key
that the record has. A file has the records alone. `Shelf` has the keys as well, and `Shelf.Mirrors`
says that nothing is lost without them: each key is the same as that of its record, so the dictionary
finds what the file finds, and every operation has the same reply and leaves the dictionary of the file
that it leaves (`Shelf.Mirrors.apply`).
-/

namespace Rowgate

/-- What is done to a file. -/
inductive FileOp
  | write (r : Record)
  | rewrite (r : Record)
  | delete (key : List Value)
  | clear

/-! ## Operations on a file -/

namespace File

/-- The work of an operation. What it says is whether it has been done. -/
def perform : FileOp → Work File Bool
  | .write r => do
    File.write r
    return true
  | .rewrite r => File.replace r
  | .delete key => File.delete key
  | .clear => do
    Work.change clear
    return true

/-- The reply to an operation, and the file after it. -/
def apply (f : File) (op : FileOp) : Except Fault Bool × File := (perform op).outcome f

/-- Does operations one after another: the replies, and the file in the end. -/
def applyAll (f : File) : List FileOp → List (Except Fault Bool) × File
  | [] => ([], f)
  | op :: ops =>
    let (reply, f) := f.apply op
    let (replies, f) := f.applyAll ops
    (reply :: replies, f)

theorem apply_write (f : File) (r : Record) :
    f.apply (.write r) =
      match f.coerce r with
      | .error fault => (.error fault, f)
      | .ok c => if f.contains (f.keyOf c) then (.error .keyTaken, f) else (.ok true, f.append c) := by
  rw [apply, perform, Work.outcome_bind_pure, outcome_write]
  cases f.coerce r with
  | error fault => rfl
  | ok c =>
      dsimp only
      split <;> rfl

theorem apply_rewrite (f : File) (r : Record) :
    f.apply (.rewrite r) =
      match f.coerce r with
      | .error fault => (.error fault, f)
      | .ok c => if f.contains (f.keyOf c) then (.ok true, f.put c) else (.ok false, f) :=
  outcome_replace f r

theorem apply_delete (f : File) (key : List Value) :
    f.apply (.delete key) =
      if f.records.isEmpty then (.ok false, f)
      else if key.all canBeKey then
        if f.contains key then (.ok true, f.erase key) else (.ok false, f)
      else (.error .noKey, f) :=
  outcome_delete f key

/-- Only an operation that is done changes the file. -/
theorem perform_keepsIf (op : FileOp) : (perform op).KeepsIf id (· ≠ .ok true) := by
  cases op with
  | write r =>
      refine (write_keepsIf r).bind_keeps (fun _ => Work.keeps_pure _) (fun _ _ => nofun) ?_
      exact fun _ _ h => absurd rfl h
  | rewrite r => exact replace_keepsIf r
  | delete key => exact delete_keepsIf key
  | clear => exact fun _ h => absurd rfl h

end File

/-! ## The dictionary of a file -/

/-- A record under a key. -/
structure Slot where
  key : List Value
  record : Record

/-- The dictionary that the records of a file are kept in, in the order in which its keys were added. -/
abbrev Shelf := List Slot

namespace Shelf

def holds (s : Shelf) (key : List Value) : Bool := s.any fun slot => Value.sameKey slot.key key

/-- Puts a record under its key. A key that is there is left as it is. -/
def set (e : Entity) (s : Shelf) (r : Record) : Shelf :=
  if s.holds (e.keyOf r) then
    s.map fun slot => if Value.sameKey slot.key (e.keyOf r) then { slot with record := r } else slot
  else s ++ [⟨e.keyOf r, r⟩]

def erase (s : Shelf) (key : List Value) : Shelf := s.filter fun slot => !Value.sameKey slot.key key

def coerce (e : Entity) (r : Record) : Except Fault Record := (e.coerce r).mapError .value

def setAll (e : Entity) (s : Shelf) : List Record → Except Fault Shelf
  | [] => .ok s
  | r :: rs => do
    let r ← coerce e r
    setAll e (s.set e r) rs

/-- The dictionary of a file with some records. -/
def ofRecords (e : Entity) (rs : List Record) : Except Fault Shelf := setAll e [] rs

/-- The reply to an operation, and the dictionary after it. -/
def apply (e : Entity) (s : Shelf) : FileOp → Except Fault Bool × Shelf
  | .write r =>
    match coerce e r with
    | .error fault => (.error fault, s)
    | .ok r => if s.holds (e.keyOf r) then (.error .keyTaken, s) else (.ok true, s.set e r)
  | .rewrite r =>
    match coerce e r with
    | .error fault => (.error fault, s)
    | .ok r => if s.holds (e.keyOf r) then (.ok true, s.set e r) else (.ok false, s)
  | .delete key =>
    if s.isEmpty then (.ok false, s)
    else if key.all File.canBeKey then
      if s.holds key then (.ok true, s.erase key) else (.ok false, s)
    else (.error .noKey, s)
  | .clear => (.ok true, [])

/-- Does operations one after another: the replies, and the dictionary in the end. -/
def applyAll (e : Entity) (s : Shelf) : List FileOp → List (Except Fault Bool) × Shelf
  | [] => ([], s)
  | op :: ops =>
    let (reply, s) := s.apply e op
    let (replies, s) := applyAll e s ops
    (reply :: replies, s)

/-- Whether a dictionary has the records of a sound file, each under a key that is the same as its
own. -/
structure Mirrors (e : Entity) (s : Shelf) (f : File) : Prop where
  entity : f.entity = e
  sound : f.Sound
  records : s.map Slot.record = f.records
  keyed : ∀ slot ∈ s,
    Value.KeyFormed slot.key ∧ Value.sameKey slot.key (e.keyOf slot.record) = true

namespace Mirrors

variable {e : Entity} {s : Shelf} {f : File} {r c : Record} {key : List Value}

theorem coerce_eq (h : s.Mirrors e f) (r : Record) : Shelf.coerce e r = f.coerce r := by
  rw [Shelf.coerce, File.coerce, h.entity]

theorem mem_records (h : s.Mirrors e f) {slot : Slot} (hslot : slot ∈ s) :
    slot.record ∈ f.records :=
  h.records ▸ List.mem_map_of_mem hslot

theorem formed (h : s.Mirrors e f) {slot : Slot} (hslot : slot ∈ s) : e.Formed slot.record :=
  h.entity ▸ h.sound.formed _ (h.mem_records hslot)

/-- A key is the same as that of a slot if it is the same as that of the record. -/
theorem sameKey_eq (h : s.Mirrors e f) {slot : Slot} (hslot : slot ∈ s) (key : List Value) :
    Value.sameKey slot.key key = f.hasKey key slot.record := by
  obtain ⟨hformed, hsame⟩ := h.keyed slot hslot
  rw [File.hasKey, h.entity]
  exact Value.sameKey_congr hformed (Entity.keyFormed_keyOf (h.formed hslot)) hsame key

theorem holds_eq (h : s.Mirrors e f) (key : List Value) : s.holds key = f.contains key := by
  rw [holds, File.contains, File.find?, List.isSome_find?, ← h.records, List.any_map,
    Bool.eq_iff_iff, List.any_eq_true, List.any_eq_true]
  refine exists_congr fun slot => and_congr_right fun hslot => ?_
  rw [h.sameKey_eq hslot, Function.comp_apply]

/-- A record that is put under its key is put into the file. -/
theorem set (h : s.Mirrors e f) (hr : e.Formed r) :
    (s.set e r).Mirrors e (if f.contains (f.keyOf r) then f.put r else f.append r) := by
  obtain rfl := h.entity
  have hsound := h.sound.set hr
  have hkey := Entity.keyFormed_keyOf hr
  rw [Shelf.set, h.holds_eq]
  by_cases hcontains : f.contains (f.entity.keyOf r) = true
  · rw [if_pos hcontains]
    rw [File.keyOf, if_pos hcontains] at hsound ⊢
    refine ⟨rfl, hsound, ?_, fun slot hslot => ?_⟩
    · rw [File.put, ← h.records, List.map_map, List.map_map]
      refine List.map_congr_left fun slot hslot => ?_
      rw [Function.comp_apply, Function.comp_apply, h.sameKey_eq hslot, File.keyOf]
      split <;> rfl
    · obtain ⟨old, hold, rfl⟩ := List.mem_map.mp hslot
      split
      · next hsame => exact ⟨(h.keyed old hold).1, hsame⟩
      · exact h.keyed old hold
  · rw [if_neg hcontains]
    rw [File.keyOf, if_neg hcontains] at hsound ⊢
    refine ⟨rfl, hsound, ?_, fun slot hslot => ?_⟩
    · rw [List.map_append, h.records]
      rfl
    · rcases List.mem_append.mp hslot with hslot | hslot
      · exact h.keyed slot hslot
      · rw [List.mem_singleton.mp hslot]
        exact ⟨hkey, Value.sameKey_self hkey⟩

theorem put (h : s.Mirrors e f) (hc : f.coerce r = .ok c)
    (hcontains : f.contains (e.keyOf c) = true) : (s.set e c).Mirrors e (f.put c) := by
  obtain rfl := h.entity
  have hset := h.set (File.formed_of_coerce hc)
  rwa [File.keyOf, if_pos hcontains] at hset

theorem append (h : s.Mirrors e f) (hc : f.coerce r = .ok c)
    (hcontains : f.contains (e.keyOf c) = false) : (s.set e c).Mirrors e (f.append c) := by
  obtain rfl := h.entity
  have hset := h.set (File.formed_of_coerce hc)
  rwa [File.keyOf, if_neg (Bool.eq_false_iff.mp hcontains)] at hset

theorem erase (h : s.Mirrors e f) (key : List Value) :
    (s.erase key).Mirrors e (f.erase key) := by
  refine ⟨h.entity, h.sound.sublist List.filter_sublist, ?_, fun slot hslot => ?_⟩
  · rw [Shelf.erase, File.erase, ← h.records, List.filter_map]
    refine congrArg _ (List.filter_congr fun slot hslot => ?_)
    rw [h.sameKey_eq hslot]
    rfl
  · exact h.keyed slot (List.mem_of_mem_filter hslot)

theorem empty (hnames : (e.fields.map (·.name)).Nodup) : Mirrors e [] (.empty e) :=
  ⟨rfl, ⟨hnames, fun _ h => (nomatch h), List.nodup_nil⟩, rfl, fun _ h => nomatch h⟩

/-- The constructor of a file fills the dictionary. -/
theorem setAll (h : s.Mirrors e f) {rs : List Record} {g : File} (hg : f.storeAll rs = .ok g) :
    ∃ t, Shelf.setAll e s rs = .ok t ∧ t.Mirrors e g := by
  induction rs generalizing s f with
  | nil =>
      cases hg
      exact ⟨s, rfl, h⟩
  | cons r rs ih =>
      rw [File.storeAll] at hg
      obtain ⟨f', hf', hg⟩ := Outcome.bind_eq_ok.mp hg
      obtain ⟨c, hc, hset⟩ := Outcome.bind_eq_ok.mp hf'
      cases hset
      have hformed : e.Formed c := h.entity ▸ File.formed_of_coerce hc
      obtain ⟨t, ht, hmirrors⟩ := ih (h.set hformed) hg
      refine ⟨t, ?_, hmirrors⟩
      rw [Shelf.setAll, h.coerce_eq, hc]
      exact ht

/-- An operation has the same reply for the dictionary as for the file, and leaves the dictionary of the
file that it leaves. -/
theorem apply (h : s.Mirrors e f) (op : FileOp) :
    (s.apply e op).1 = (f.apply op).1 ∧ (s.apply e op).2.Mirrors e (f.apply op).2 := by
  have hkey : ∀ r, f.keyOf r = e.keyOf r := fun r => by rw [File.keyOf, h.entity]
  cases op with
  | write r =>
      rw [Shelf.apply, File.apply_write, h.coerce_eq]
      cases hc : f.coerce r with
      | error fault => exact ⟨rfl, h⟩
      | ok c =>
          dsimp only
          rw [hkey, h.holds_eq]
          cases hcontains : f.contains (e.keyOf c) with
          | true => exact ⟨rfl, h⟩
          | false => exact ⟨rfl, h.append hc hcontains⟩
  | rewrite r =>
      rw [Shelf.apply, File.apply_rewrite, h.coerce_eq]
      cases hc : f.coerce r with
      | error fault => exact ⟨rfl, h⟩
      | ok c =>
          dsimp only
          rw [hkey, h.holds_eq]
          cases hcontains : f.contains (e.keyOf c) with
          | true => exact ⟨rfl, h.put hc hcontains⟩
          | false => exact ⟨rfl, h⟩
  | delete key =>
      have hempty : s.isEmpty = f.records.isEmpty := by
        rw [← h.records, List.isEmpty_map]
      rw [Shelf.apply, File.apply_delete, h.holds_eq, hempty]
      cases f.records.isEmpty with
      | true => exact ⟨rfl, h⟩
      | false =>
          cases key.all File.canBeKey with
          | false => exact ⟨rfl, h⟩
          | true =>
              cases f.contains key with
              | true => exact ⟨rfl, h.erase key⟩
              | false => exact ⟨rfl, h⟩
  | clear =>
      exact ⟨rfl, h.entity, h.sound.sublist (List.nil_sublist _), rfl, List.forall_mem_nil _⟩

theorem applyAll (h : s.Mirrors e f) (ops : List FileOp) :
    (s.applyAll e ops).1 = (f.applyAll ops).1 ∧
      (s.applyAll e ops).2.Mirrors e (f.applyAll ops).2 := by
  induction ops generalizing s f with
  | nil => exact ⟨rfl, h⟩
  | cons op ops ih =>
      obtain ⟨hreply, hstep⟩ := h.apply op
      obtain ⟨hreplies, hrun⟩ := ih hstep
      exact ⟨congrArg₂ List.cons hreply hreplies, hrun⟩

end Mirrors

end Shelf

end Rowgate
