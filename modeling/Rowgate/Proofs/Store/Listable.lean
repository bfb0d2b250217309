import Rowgate.Proofs.Entity.Prescribed
import Rowgate.Proofs.Json.Sending
import Rowgate.Proofs.Store.Complete
import Rowgate.Proofs.Store.KeyOrder

/-!
# Files that can be listed

A single record can spoil the listing of all: by a key that cannot be compared with the other keys, or by
a value that cannot be sent. Neither comes out of the file itself. No record is stored without all of its
key (`File.Keyed`), keys of one kind can be compared unless they are moments of which only one has an
offset, and what can be listed of a field can still be listed in each form that the field brings it to on
the way into the file (`Field.Listable.again`). So where all that writes bring can be listed
(`Field.Listable`), the file can be (`File.Listable.ordered`, `File.Listable.sendable`).
-/

namespace Rowgate

/-! ## Values -/

/-- A value that came out of a field can be sent, and as part of a key it is in step. -/
structure Field.Listable (f : Field) (aware : Bool) (v : Value) : Prop where
  made : ∃ x, f.coerce x = .ok v
  sendable : Json.Sendable v
  inStep : f.isKey = true → v.InStep aware

namespace Field

variable {f : Field} {aware : Bool} {x v w : Value}

/-- A number that came out of a field comes out of it as one that can be sent. -/
theorem sendable_toNumber (hk : f.kind = .numeric) (hx : toNumber f.scale x = .ok v)
    (hv : Json.Sendable v) (hw : toNumber f.scale v = .ok w) : Json.Sendable w := by
  rcases (prescribes_toNumber hk hx).1 with hprescribed | ⟨hs, b, -, rfl⟩
  · cases (hprescribed.toNumber_eq hk).symm.trans hw
    exact hv
  · -- a truth value, of which the field makes a decimal only now
    rw [toNumber, if_neg hs] at hw
    cases hw
    exact .finite fun _ => by cases b <;> decide

theorem sendable_again (hx : f.coerce x = .ok v) (hv : Json.Sendable v) (hw : f.coerce v = .ok w) :
    Json.Sendable w := by
  cases hnull : v.isNull with
  | true =>
      rw [Value.eq_null_of_isNull ((isNull_coerce hw).trans hnull)]
      exact .null
  | false =>
      have hxnull := (isNull_coerce hx).symm.trans hnull
      by_cases hk : f.kind = .numeric
      · rw [coerce_of_not_null hxnull, coerceSome, hk] at hx
        rw [coerce_of_not_null hnull, coerceSome, hk] at hw
        exact sendable_toNumber hk hx hv hw
      · obtain ⟨w', hw', -, -, -, hsame⟩ := coerce_of_holds (coerce_holds hx)
        cases hw.symm.trans hw'
        rw [hsame hk]
        exact hv

theorem inStep_again (hx : f.coerce x = .ok v) (hv : v.InStep aware) (hw : f.coerce v = .ok w) :
    w.InStep aware := by
  obtain ⟨w', hw', hholds, -, -, hsame⟩ := coerce_of_holds (coerce_holds hx)
  cases hw.symm.trans hw'
  by_cases hk : f.kind = .numeric
  · rcases hholds with rfl | hfits
    · trivial
    · exact hfits.inStep (by rw [hk]; exact nofun) (by rw [hk]; exact nofun)
  · rw [hsame hk]
    exact hv

namespace Listable

theorem null (f : Field) (aware : Bool) : f.Listable aware .null :=
  ⟨⟨.null, rfl⟩, .null, fun _ => trivial⟩

/-- What can be listed can still be listed when it is brought to the form of the field again. -/
theorem again (hv : f.Listable aware v) (hw : f.coerce v = .ok w) : f.Listable aware w := by
  obtain ⟨x, hx⟩ := hv.made
  exact ⟨⟨v, hw⟩, sendable_again hx hv.sendable hw, fun hkey => inStep_again hx (hv.inStep hkey) hw⟩

end Listable

end Field

/-! ## Records -/

namespace Entity

variable {e : Entity} {P : Field → Value → Prop} {r s stored : Record}

/-- Whether all that a record has of the fields has a property. -/
def Every (e : Entity) (P : Field → Value → Prop) (r : Record) : Prop :=
  ∀ f ∈ e.fields, ∀ v, Record.field? r f.name = some v → P f v

namespace Every

theorem field (h : e.Every P r) (hnull : ∀ f, P f .null) {f : Field} (hf : f ∈ e.fields) :
    P f (Record.field r f.name) := by
  rw [Record.field]
  cases hv : Record.field? r f.name with
  | none => exact hnull f
  | some v => exact h f hf v hv

/-- What values keep when they are brought to the form of their fields, records keep. -/
theorem coerce (hnames : (e.fields.map (·.name)).Nodup) (h : e.Every P r)
    (hagain : ∀ {f v w}, P f v → f.coerce v = .ok w → P f w) (hs : e.coerce r = .ok s) :
    e.Every P s := by
  intro f hf w hw
  rcases field?_coerceEntries hs f.name with ⟨-, hnone⟩ | ⟨v, w', hv, hw', hcoerce⟩
  · rw [hnone] at hw
    cases hw
  · rw [Entity.fieldNamed?_of_mem hnames hf] at hcoerce
    cases hw'.symm.trans hw
    exact hagain (h f hf v hv) hcoerce

theorem project (h : e.Every P r) (hnull : ∀ f, P f .null) : e.Every P (e.project r) := by
  intro f hf v hv
  rw [field?_project, if_pos (List.mem_map_of_mem hf)] at hv
  cases hv
  exact h.field hnull hf

theorem merge (hstored : e.Every P stored) (h : e.Every P r) :
    e.Every P (FileService.merge e.fields stored r) := by
  intro f hf v hv
  rw [field?_merge] at hv
  split at hv
  · exact h f hf v hv
  · exact hstored f hf v hv

end Every

/-! ## Keys -/

/-- Keys without null in which moments are in step can be compared. -/
theorem exists_compareItems {aware : Field → Bool} {a b : Record}
    (ha : e.Every (fun f => f.Listable (aware f)) a) (hb : e.Every (fun f => f.Listable (aware f)) b)
    (ha' : e.missingKeys a = []) (hb' : e.missingKeys b = []) :
    ∃ o, Value.compareItems (e.keyOf a) (e.keyOf b) = .ok o := by
  have hfits : ∀ {r}, e.Every (fun f => f.Listable (aware f)) r → e.missingKeys r = [] →
      ∀ f ∈ e.keyFields, Fits f.kind (Record.field r f.name) ∧
        (Record.field r f.name).InStep (aware f) := by
    intro r hr hkeys f hf
    obtain ⟨hmem, hkey⟩ := List.mem_filter.mp hf
    obtain ⟨⟨x, hx⟩, -, hstep⟩ := hr.field (fun f => .null f _) hmem
    have hnull := not_null_of_missingKeys hkeys (List.mem_map_of_mem (f := (·.name)) hf)
    refine ⟨(Field.coerce_holds hx).resolve_left fun heq => ?_, hstep hkey⟩
    rw [heq] at hnull
    cases hnull
  have hleft := hfits ha ha'
  have hright := hfits hb hb'
  rw [keyOf, keyOf, keyNames]
  generalize e.keyFields = fields at hleft hright
  induction fields with
  | nil => exact ⟨_, rfl⟩
  | cons f fields ih =>
      obtain ⟨⟨hv, hv'⟩, hleft⟩ := List.forall_mem_cons.mp hleft
      obtain ⟨⟨hw, hw'⟩, hright⟩ := List.forall_mem_cons.mp hright
      simp only [List.map_cons]
      rw [Value.compareItems, Fits.not_refusesEquality hv hw, if_neg Bool.false_ne_true]
      split
      · exact ih hleft hright
      · exact Fits.exists_compare hv hw hv' hw'

/-- A record with the fields of the entity, of which all can be sent, can be sent. -/
theorem sendable_of_complete (hnames : (e.fields.map (·.name)).Nodup)
    (htexts : ∀ f ∈ e.fields, Text.Whole f.name.toList) (hr : e.Complete r)
    (h : e.Every (fun _ => Json.Sendable) r) : Json.Sendable (.dict r) := by
  have hfield : ∀ entry ∈ r, ∃ f ∈ e.fields, f.name = entry.1 := fun entry hentry =>
    List.mem_map.mp (hr ▸ List.mem_map_of_mem (f := Prod.fst) hentry)
  refine .dict (fun entry hentry => ?_) fun entry hentry => ?_
  · obtain ⟨f, hf, hname⟩ := hfield entry hentry
    exact hname ▸ htexts f hf
  · obtain ⟨f, hf, hname⟩ := hfield entry hentry
    have hnodup : (Record.names r).Nodup := hr ▸ hnames
    exact h f hf entry.2 (Record.field?_of_mem hnodup (hname.symm ▸ hentry))

end Entity

/-! ## Files -/

namespace File

variable {e : Entity} {f : File} {aware : Field → Bool}

/-- Whether all that the records of a file have of the fields can be listed. -/
def Listable (aware : Field → Bool) (f : File) : Prop :=
  ∀ r ∈ f.records, f.entity.Every (fun field => field.Listable (aware field)) r

/-- A write that brings only what can be listed leaves only what can be listed. -/
theorem Listable.serve (hf : f.Sound) (h : f.Listable aware) (s : FileService) (w : Write)
    (hw : f.entity.Every (fun field => field.Listable (aware field)) w.record) :
    (s.serve f w).2.Listable aware := by
  obtain ⟨-, -, hentity, -⟩ := serve_ledger s hf w
  have hcoerce : ∀ {r c}, f.entity.Every (fun field => field.Listable (aware field)) r →
      f.entity.coerce r = .ok c → f.entity.Every (fun field => field.Listable (aware field)) c :=
    fun hr hc => hr.coerce hf.names (fun hv => hv.again) hc
  rw [Listable, hentity]
  refine FileService.forall_serve h s w (fun r hr c hc => ?_) fun r hr stored hstored c hc => ?_
  · exact hcoerce ((hcoerce hw hr.1).project fun field => .null field _) (Outcome.ok_of_mapError hc)
  · exact hcoerce (hstored.merge (hcoerce hw hr.1)) (Outcome.ok_of_mapError hc)

theorem Listable.ordered (h : f.Listable aware) (hkeys : f.Keyed) : f.Ordered := by
  intro a b ha hb
  obtain ⟨o, ho⟩ := Entity.exists_compareItems (h a ha) (h b hb) (hkeys a ha) (hkeys b hb)
  refine ⟨o == some .lt, ?_, trivial⟩
  rw [isBefore, keyOf, keyOf, ho]

theorem Listable.sendable (h : f.Listable aware) (hf : f.Sound) (hcomplete : f.Complete)
    (htexts : ∀ field ∈ f.entity.fields, Text.Whole field.name.toList) :
    ∀ r ∈ f.records, Json.Sendable (.dict r) := fun r hr =>
  Entity.sendable_of_complete hf.names htexts (hcomplete r hr) fun field hfield v hv =>
    (h r hr field hfield v hv).sendable

end File

end Rowgate
