import Rowgate.Proofs.Request.Fields
import Rowgate.Proofs.Store.Paging
import Rowgate.Proofs.Store.Shown

/-!
# Putting back what was shown

A client is shown the records of a file and sends one of them back. What it sends says of every field
what the client read there, so the record that is stored in place of the old one shows the same, and
so does the file (`Returning.put_back`).
-/

namespace Rowgate

/-- A record as a client reads it. -/
def Entity.shown (e : Entity) (r : Record) : Record :=
  e.fields.map fun f => (f.name, (Record.field r f.name).received)

/-- Whether a file can be listed and every record of it can be sent back: its records have a key that
is not null, the keys can be compared, and what the fields hold can be written and read. -/
structure File.Returning (f : File) : Prop where
  sound : f.Sound
  texts : ∀ field ∈ f.entity.fields, Text.Whole field.name.toList
  keyed : ∀ r ∈ f.records, f.entity.missingKeys r = []
  ordered : f.Ordered
  returns : ∀ r ∈ f.records, ∀ field ∈ f.entity.fields, (Record.field r field.name).Returns

/-! ## Pages -/

section Pages

variable {e : Entity} {r s : Record} {records : List Record}

theorem received_page (records : List Record) :
    (Value.dict (Page.toRecord ⟨records, 0⟩)).received =
      .dict [("data", .list (records.map fun r => (Value.dict r).received)), ("count", .int 0)] := by
  simp only [Page.toRecord, Value.received, Value.spelled, Value.spelledEntries, Value.reread,
    Value.rereadEntries, Value.spelledItems_eq_map, Value.rereadItems_eq_map, List.map_map,
    Function.comp_def]

theorem reread_page (records : List Record) :
    (Value.dict (Page.toRecord ⟨records, 0⟩)).reread =
      .dict [("data", .list (records.map fun r => (Value.dict r).reread)), ("count", .int 0)] := by
  simp only [Page.toRecord, Value.reread, Value.rereadEntries, Value.rereadItems_eq_map,
    List.map_map, Function.comp_def]

theorem returns_page (h : ∀ r ∈ records, (Value.dict r).Returns) :
    (Value.dict (Page.toRecord ⟨records, 0⟩)).Returns := by
  have hnames : ["data", "count"].Nodup := by decide
  refine .dict hnames ?_ ?_
  · simp only [Page.toRecord, List.forall_mem_cons, List.not_mem_nil, false_implies, implies_true,
      and_true]
    decide
  · simp only [Page.toRecord, List.forall_mem_cons, List.not_mem_nil, false_implies, implies_true,
      and_true]
    exact ⟨.list (List.forall_mem_map.mpr h), .int (by decide)⟩

theorem received_project (hnames : (e.fields.map (·.name)).Nodup) (r : Record) :
    (Value.dict (e.project r)).received = .dict (e.shown r) := by
  rw [e.project_eq_map hnames, Value.received, Value.spelled, Value.reread,
    Value.spelledEntries_eq_map, Value.rereadEntries_eq_map, List.map_map, List.map_map]
  rfl

theorem returns_project (hnames : (e.fields.map (·.name)).Nodup)
    (htexts : ∀ f ∈ e.fields, Text.Whole f.name.toList)
    (h : ∀ f ∈ e.fields, (Record.field r f.name).Returns) : (Value.dict (e.project r)).Returns := by
  refine .dict (e.complete_project hnames r ▸ hnames) ?_ ?_
  · rw [e.project_eq_map hnames]
    exact List.forall_mem_map.mpr htexts
  · rw [e.project_eq_map hnames]
    exact List.forall_mem_map.mpr h

theorem depth_project (hnames : (e.fields.map (·.name)).Nodup) (hr : e.Formed r) :
    ∀ entry ∈ e.project r, entry.2.depth = 1 := by
  rw [e.project_eq_map hnames]
  refine List.forall_mem_map.mpr fun f hf => ?_
  exact (hr.field (Entity.fieldNamed?_of_mem hnames hf)).depth_eq

end Pages

/-! ## What is sent back -/

section Sent

variable {e : Entity} {r c : Record}

theorem field?_shown (hnames : (e.fields.map (·.name)).Nodup) {f : Field} (hf : f ∈ e.fields) :
    Record.field? (e.shown r) f.name = some (Record.field r f.name).received := by
  have hnodup : (Record.names (e.shown r)).Nodup := by
    rw [Record.names, Entity.shown, List.map_map]
    exact hnames
  exact Record.field?_of_mem hnodup (List.mem_map_of_mem hf)

/-- A body that sends a shown record back says of every field what shows the same. -/
theorem sure_fieldsIn_shown (hnames : (e.fields.map (·.name)).Nodup) (hr : e.Formed r)
    (hreturns : ∀ f ∈ e.fields, (Record.field r f.name).Returns) (method : Method) :
    ∃ c, (e.fieldsIn method (e.shown r)).result = .ok c ∧ e.Formed c ∧ e.ShowsAs r c ∧
      (∀ f ∈ e.fields, Record.has c f.name = true) ∧
      ∀ f ∈ e.fields, (Record.field c f.name).Returns := by
  refine ⟨_, result_fieldsIn e method _, ?_, ?_⟩
  · exact formed_foldl_saying hnames (fun _ => id) fun _ h => nomatch h
  · have hsaid : ∀ f ∈ e.fields, ∃ w, Record.field? (e.fields.foldl (saying (e.shown r)
        (method == .put)) []) f.name = some w ∧ w.reread = (Record.field r f.name).reread ∧
          w.Returns := by
      intro f hf
      obtain ⟨w, hw, hreread, hreturns'⟩ := Field.coerce_received
        (hr.field (Entity.fieldNamed?_of_mem hnames hf)) (hreturns f hf)
      refine ⟨w, ?_, hreread, hreturns'⟩
      rw [field?_foldl_saying hnames (fun _ _ => rfl) f hf, Field.said, field?_shown hnames hf]
      show (f.coerce (Record.field r f.name).received).toOption = some w
      rw [hw]
      rfl
    refine ⟨fun f hf => ?_, fun f hf => ?_, fun f hf => ?_⟩
    · obtain ⟨w, hw, hreread, -⟩ := hsaid f hf
      rw [Record.field, hw]
      exact hreread
    · obtain ⟨w, hw, -⟩ := hsaid f hf
      rw [Record.has, hw]
      rfl
    · obtain ⟨w, hw, -, hreturns'⟩ := hsaid f hf
      rw [Record.field, hw]
      exact hreturns'

theorem merge_showsAs (fields : List Field) (h : e.ShowsAs r c)
    (hr : ∀ f ∈ e.fields, (Record.field r f.name).Returns)
    (hc : ∀ f ∈ e.fields, (Record.field c f.name).Returns) :
    e.ShowsAs r (FileService.merge fields r c) ∧
      ∀ f ∈ e.fields, (Record.field (FileService.merge fields r c) f.name).Returns := by
  refine forall₂_and.mp fun f hf => ?_
  -- key fields and read-only fields keep what is stored, the others take what is sent
  have hfield : Record.field (FileService.merge fields r c) f.name = Record.field c f.name ∨
      Record.field (FileService.merge fields r c) f.name = Record.field r f.name := by
    rw [Record.field, Record.field, Record.field, Entity.field?_merge]
    split
    · exact Or.inl rfl
    · exact Or.inr rfl
  rcases hfield with hfield | hfield
  · rw [hfield]
    exact ⟨h f hf, hc f hf⟩
  · rw [hfield]
    exact ⟨rfl, hr f hf⟩

theorem Entity.ShowsAs.missingKeys_eq (h : e.ShowsAs r c) (hr : e.missingKeys r = []) :
    e.missingKeys c = [] := by
  rw [Entity.missingKeys, List.filter_eq_nil_iff] at hr ⊢
  intro name hname
  rw [← Value.isNull_reread, h.reread_key hname, Value.isNull_reread]
  exact hr name hname

/-- A record that can be sent back is brought to the form of the fields once more, and shows the same
then. -/
theorem coerce_shown (hc : e.Formed c)
    (hreturns : ∀ f ∈ e.fields, (Record.field c f.name).Returns) :
    ∃ s, e.coerce c = .ok s ∧ e.Formed s ∧ e.ShowsAs c s ∧
      ∀ f ∈ e.fields, (Record.field s f.name).Returns := by
  obtain ⟨s, hs, hformed, -⟩ := Entity.coerce_of_formed hc
  exact ⟨s, hs, hformed, Entity.coerce_showsAs hc hs hreturns⟩

end Sent

/-! ## Files -/

namespace File.Returning

variable {f g : File} {content : String} {r c : Record}

theorem returns_records (hf : f.Returning) {scan : List Record} (hscan : scan ⊆ f.records) :
    ∀ r ∈ scan.map f.entity.project, (Value.dict r).Returns := by
  refine List.forall_mem_map.mpr fun r hr => ?_
  exact returns_project hf.sound.names hf.texts (hf.returns r (hscan hr))

theorem depth_records (hf : f.Returning) {scan : List Record} (hscan : scan ⊆ f.records) :
    (Value.dict (Page.toRecord ⟨scan.map f.entity.project, 0⟩)).depth ≤ Json.depthLimit := by
  refine Page.depth_le (List.forall_mem_map.mpr fun r hr => ?_)
  exact depth_project hf.sound.names (hf.sound.formed r (hscan hr))

theorem perm_of_scan (hf : f.Returning) {scan : List Record} (hscan : f.scan = .ok scan) :
    scan.Perm f.records := by
  obtain ⟨scan', hscan', hperm, -⟩ := sure_scan hf.sound.formed hf.ordered
  cases hscan.symm.trans hscan'
  exact hperm

/-- The records of a file can be listed. -/
theorem shows (hf : f.Returning) :
    ∃ content, f.Shows content := by
  obtain ⟨scan, hscan, hperm, -⟩ := sure_scan hf.sound.formed hf.ordered
  obtain ⟨content, hcontent, -⟩ :=
    (returns_page (hf.returns_records hperm.subset)).read_write (hf.depth_records hperm.subset)
  exact ⟨content, scan, hscan, hcontent⟩

/-- What a client reads in the text that a file is written as. -/
theorem read_content (hf : f.Returning) (h : f.Shows content) :
    ∃ scan : List Record, scan.Perm f.records ∧ Json.read content.toList =
      .ok (.dict [("data", .list (scan.map fun r => .dict (f.entity.shown r))),
        ("count", .int 0)]) := by
  obtain ⟨scan, hscan, hcontent⟩ := h
  have hperm := hf.perm_of_scan hscan
  obtain ⟨content', hcontent', hread⟩ :=
    (returns_page (hf.returns_records hperm.subset)).read_write (hf.depth_records hperm.subset)
  cases hcontent.symm.trans hcontent'
  refine ⟨scan, hperm, ?_⟩
  have hshown : ∀ r, (Value.dict (f.entity.project r)).received = .dict (f.entity.shown r) :=
    received_project hf.sound.names
  rw [hread, received_page, List.map_map]
  simp only [Function.comp_def, hshown]

/-- The text that a record is shown as is one that can be sent back. -/
theorem decode_shown (hf : f.Returning) (hr : r ∈ f.records) :
    ∃ text, Json.write (.dict (f.entity.project r)) = .ok text ∧
      Body.decode (.text text) = .ok (f.entity.shown r) := by
  have hdepth : (Value.dict (f.entity.project r)).depth ≤ Json.depthLimit := by
    have hentries : Value.entriesDepth (f.entity.project r) ≤ 1 :=
      Value.entriesDepth_le_iff.mpr fun entry hentry =>
        (depth_project hf.sound.names (hf.sound.formed r hr) entry hentry).le
    rw [Value.depth, Json.depthLimit]
    omega
  obtain ⟨text, htext, hread⟩ :=
    (returns_project hf.sound.names hf.texts (hf.returns r hr)).read_write hdepth
  refine ⟨text, htext, ?_⟩
  rw [received_project hf.sound.names] at hread
  have hne : text.isEmpty = false := by
    rw [String.isEmpty_eq_false_iff]
    rintro rfl
    cases hread
  rw [Body.decode, Body.isEmpty, hne, if_neg Bool.false_ne_true, Body.read, hread]
  rfl

/-- A file with a record that shows the same in the place of each record is written as before. -/
theorem of_showsAs {sub : Record → Record} (hf : f.Returning) (hshows : f.Shows content)
    (hg : g.Sound) (hentity : g.entity = f.entity) (hrecords : g.records = f.records.map sub)
    (hsub : ∀ s ∈ f.records, f.entity.ShowsAs s (sub s))
    (hreturns : ∀ s ∈ f.records, ∀ field ∈ f.entity.fields,
      (Record.field (sub s) field.name).Returns) :
    g.Returning ∧ g.Shows content := by
  obtain ⟨scan, hscan, hcontent⟩ := hshows
  obtain ⟨hordered, hscan'⟩ :=
    scan_map hentity hrecords hf.sound.formed hg.formed hf.ordered hsub hscan
  have hreturning : g.Returning := {
    sound := hg
    texts := hentity ▸ hf.texts
    keyed := fun s hs => by
      obtain ⟨t, ht, rfl⟩ := List.mem_map.mp (hrecords ▸ hs)
      rw [hentity]
      exact (hsub t ht).missingKeys_eq (hf.keyed t ht)
    ordered := hordered
    returns := fun s hs => by
      obtain ⟨t, ht, rfl⟩ := List.mem_map.mp (hrecords ▸ hs)
      rw [hentity]
      exact hreturns t ht }
  have hmem : scan ⊆ f.records := (hf.perm_of_scan hscan).subset
  have hmem' : scan.map sub ⊆ g.records := (hreturning.perm_of_scan hscan').subset
  -- the two pages read the same, so they are written the same
  refine ⟨hreturning, _, hscan', ?_⟩
  rw [← hcontent]
  refine (returns_page (hf.returns_records hmem)).write_eq
    (returns_page (hreturning.returns_records hmem')) (hf.depth_records hmem) ?_
  rw [reread_page, reread_page, List.map_map, List.map_map, List.map_map, hentity]
  have heq : ∀ s ∈ scan, (Value.dict (f.entity.project (sub s))).reread =
      (Value.dict (f.entity.project s)).reread := fun s hs =>
    (hsub s (hmem hs)).reread_project hf.sound.names
  exact congrArg (fun items => Value.dict [("data", .list items), ("count", .int 0)])
    (List.map_congr_left heq)

/-- A file in which a record has taken the place of one that shows the same is written as before. -/
theorem put (hf : f.Returning) (hshows : f.Shows content) (hr : r ∈ f.records)
    (hc : f.entity.Formed c) (h : f.entity.ShowsAs r c)
    (hreturns : ∀ field ∈ f.entity.fields, (Record.field c field.name).Returns) :
    (f.put c).Returning ∧ (f.put c).Shows content := by
  have hplace := h.place_eq (hf.sound.formed r hr) hc
  have hrecords := hf.sound.records_put hc
  rw [hplace] at hrecords
  have htaken : (f.ledger.lookup (f.entity.place c)).isSome := by
    rw [hf.sound.lookup_place hc, hf.sound.find?_of_mem hc hr hplace.symm]
    rfl
  refine hf.of_showsAs hshows (hf.sound.put hc htaken).1 rfl hrecords (fun s hs => ?_)
    fun s hs => ?_
  · split
    · next heq => exact hf.sound.eq_of_place hr hs heq ▸ h
    · exact Entity.ShowsAs.refl _ s
  · split
    · exact hreturns
    · exact hf.returns s hs

theorem replace (hf : f.Returning) (hshows : f.Shows content) (hr : r ∈ f.records)
    (hc : f.entity.Formed c) (h : f.entity.ShowsAs r c)
    (hreturns : ∀ field ∈ f.entity.fields, (Record.field c field.name).Returns) :
    ∃ g, (File.replace c).outcome f = (.ok true, g) ∧ g.entity = f.entity ∧ g.Returning ∧
      g.Shows content := by
  obtain ⟨s, hs, hformed, hshow, hreturns'⟩ := coerce_shown hc hreturns
  replace hshow := h.trans hshow
  have hplace := hshow.place_eq (hf.sound.formed r hr) hformed
  have hfound : f.contains (f.keyOf s) = true := by
    rw [File.contains, hf.sound.find?_of_mem hformed hr hplace.symm]
    rfl
  refine ⟨f.put s, ?_, rfl, hf.put hshows hr hformed hshow hreturns'⟩
  rw [File.outcome_replace, File.coerce, hs]
  exact if_pos hfound

/-- A record that shows what a record of the file shows is put back without a finding, and the file
is written as before. -/
theorem put_back {service : FileService} (hs : service.readOnly = false) (hf : f.Returning)
    (hshows : f.Shows content) (hr : r ∈ f.records) (hc : f.entity.Formed c)
    (h : f.entity.ShowsAs r c)
    (hreturns : ∀ field ∈ f.entity.fields, (Record.field c field.name).Returns) :
    ∃ g, (service.update c).outcome f = (.ok [], g) ∧ g.entity = f.entity ∧ g.Returning ∧
      g.Shows content := by
  -- the record passes through the form of the fields here, and once more in `replace`
  obtain ⟨s, hcoerce, hformed, hshow, hreturns'⟩ := coerce_shown hc hreturns
  replace hshow := h.trans hshow
  have hkeyed : f.entity.Keyed c s := ⟨hcoerce, hshow.missingKeys_eq (hf.keyed r hr)⟩
  have hplace := hshow.place_eq (hf.sound.formed r hr) hformed
  have hread : f.read (f.keyOf s) = .ok (some r) := by
    rw [File.read_of_formed hformed, hf.sound.find?_of_mem hformed hr hplace.symm]
  obtain ⟨hmerge, hreturns''⟩ :=
    merge_showsAs f.entity.fields hshow (hf.returns r hr) hreturns'
  obtain ⟨g, hg, hentity, hg', hshows'⟩ := hf.replace hshows hr
    (hformed.merge f.entity.fields (hf.sound.formed r hr)) hmerge hreturns''
  refine ⟨g, ?_, hentity, hg', hshows'⟩
  rw [FileService.update, FileService.outcome_of_keyed hs hkeyed, FileService.outcome_updateKeyed,
    hread]
  dsimp only
  rw [hg]
  rfl

end File.Returning

end Rowgate
