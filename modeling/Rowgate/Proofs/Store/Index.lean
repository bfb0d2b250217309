import Rowgate.Proofs.Entity.Idempotent
import Rowgate.Proofs.Store.Shelf

/-!
# What an indexed file promises

Whatever is done to a file, its keys stay different, every record is found under its key, and a scan
has the records in the order of their keys (`File.IndexedBy`). Most of it follows from the one thing
that the operations keep: there is one record at each place (`File.Sound`). Places are what the keys
stand for, so a key that is looked up leads to one place at most (`File.Sound.read_eq_some_iff`), and
records of a scan with keys that have no order would be at one place, unless their keys are equal and
told apart by an offset (`File.Sound.scan`).
-/

namespace Rowgate

open Value

/-- What holds of a file of an entity and of the dictionary that its records are kept in. -/
structure File.IndexedBy (e : Entity) (s : Shelf) (f : File) : Prop where
  records : s.map Slot.record = f.records
  /-- No two keys are equal, unless they are told apart. -/
  apart : s.Pairwise fun a b => equalItems a.key b.key = true → ToldApart a.key b.key
  keyed : ∀ slot ∈ s, Coincide slot.key (e.keyOf slot.record)
  settled : ∀ r ∈ f.records, ∃ again, e.coerce r = .ok again ∧ List.Forall₂ e.Restates again r
  /-- There is no longer list of different keys under which a record is read. -/
  counted : ∀ keys : List (List Value), keys.Pairwise (fun a b => ¬ Coincide a b) →
    (∀ key ∈ keys, ∃ r, f.read key = .ok (some r)) → keys.length ≤ f.records.length
  found : ∀ key r, f.read key = .ok (some r) ↔ r ∈ f.records ∧ Coincide (e.keyOf r) key
  scanned : f.Ordered → ∃ rs, f.scan = .ok rs ∧ rs.Perm f.records ∧
    (rs.Pairwise fun a b => f.isBefore a b = .ok true ∨
      equalItems (e.keyOf a) (e.keyOf b) = true ∧ ToldApart (e.keyOf a) (e.keyOf b)) ∧
    ∀ key r, f.read key = .ok (some r) ↔ r ∈ rs ∧ Coincide (e.keyOf r) key

/-- When a file refuses an operation, which leaves it as it is. -/
structure File.Refuses (f : File) : Prop where
  taken : ∀ r, (f.apply (.write r)).1 = .error .keyTaken ↔
    ∃ c old, f.coerce r = .ok c ∧ f.read (f.keyOf c) = .ok (some old)
  missing : ∀ r, (f.apply (.rewrite r)).1 = .ok false ↔
    ∃ c, f.coerce r = .ok c ∧ f.read (f.keyOf c) = .ok none
  absent : ∀ key, (f.apply (.delete key)).1 = .ok false ↔ f.records = [] ∨ f.read key = .ok none
  unchanged : ∀ op, (f.apply op).1 ≠ .ok true → (f.apply op).2 = f

namespace File

variable {f : File} {r c : Record} {key : List Value}

/-! ## Looking up -/

theorem keyFormed_of_mem (hf : f.Sound) (hr : r ∈ f.records) : KeyFormed (f.keyOf r) :=
  Entity.keyFormed_keyOf (hf.formed r hr)

/-- A record is read under just the keys that are the same as its own. -/
theorem Sound.read_eq_some_iff (hf : f.Sound) :
    f.read key = .ok (some r) ↔ r ∈ f.records ∧ sameKey (f.keyOf r) key = true := by
  constructor
  · intro h
    rw [File.read] at h
    split at h
    · have hfind := Except.ok.inj h
      exact ⟨mem_of_find? hfind, hasKey_of_find? hfind⟩
    · cases h
  · rintro ⟨hr, hsame⟩
    have hformed := keyFormed_of_mem hf hr
    rw [File.read, if_pos (all_canBeKey_of_sameKey hformed hsame)]
    cases hfind : f.find? key with
    | none => exact absurd hsame (List.find?_eq_none.mp hfind r hr)
    | some other =>
        have hother := mem_of_find? hfind
        have hsame' := hasKey_of_find? hfind
        -- both have the key that is asked for, and a file has one record at a place
        have hplace : f.entity.place other = f.entity.place r :=
          (map_datum?_of_sameKey (keyFormed_of_mem hf hother) hsame').symm.trans
            (map_datum?_of_sameKey hformed hsame)
        rw [hf.eq_of_place hr hother hplace]

theorem Sound.pairwise_place (hf : f.Sound) :
    f.records.Pairwise fun a b => f.entity.place a ≠ f.entity.place b :=
  List.pairwise_map.mp hf.places

/-- Different keys under which there is a record are the keys of different records. -/
theorem Sound.length_le (hf : f.Sound) {keys : List (List Value)}
    (hkeys : keys.Pairwise fun a b => sameKey a b = false)
    (hread : ∀ key ∈ keys, ∃ r, f.read key = .ok (some r)) :
    keys.length ≤ f.records.length := by
  choose! record hread using hread
  have hrecord : ∀ key ∈ keys,
      record key ∈ f.records ∧ sameKey (f.keyOf (record key)) key = true :=
    fun key hkey => hf.read_eq_some_iff.mp (hread key hkey)
  have hnodup : (keys.map record).Nodup := by
    refine List.pairwise_map.mpr (hkeys.imp_of_mem fun {a b} ha hb hdiffer heq => ?_)
    obtain ⟨hmem, hsame⟩ := hrecord a ha
    have hsame' := (hrecord b hb).2
    rw [← heq] at hsame'
    rw [sameKey_of_sameKey (keyFormed_of_mem hf hmem) hsame hsame'] at hdiffer
    cases hdiffer
  have hsubset : keys.map record ⊆ f.records := fun r hr => by
    obtain ⟨key, hkey, rfl⟩ := List.mem_map.mp hr
    exact (hrecord key hkey).1
  have hlength := (hnodup.subperm hsubset).length_le
  rwa [List.length_map] at hlength

/-! ## Scanning -/

/-- Records of a file come in the order of their keys, and only equal keys have no order. -/
theorem Sound.scan (hf : f.Sound) (hordered : f.Ordered) :
    ∃ rs, f.scan = .ok rs ∧ rs.Perm f.records ∧
      rs.Pairwise fun a b => f.isBefore a b = .ok true ∨
        equalItems (f.keyOf a) (f.keyOf b) = true ∧ ToldApart (f.keyOf a) (f.keyOf b) := by
  obtain ⟨rs, hrs, hperm, hpairwise⟩ := sure_scan hf.formed hordered
  have hplaces : rs.Pairwise fun a b => f.entity.place a ≠ f.entity.place b :=
    (hperm.pairwise_iff fun h => h.symm).mpr hf.pairwise_place
  refine ⟨rs, hrs, hperm, (hpairwise.and hplaces).imp_of_mem fun {a b} ha hb h => ?_⟩
  have ha' := hperm.mem_iff.mp ha
  have hb' := hperm.mem_iff.mp hb
  have hfa := hf.formed a ha'
  have hfb := hf.formed b hb'
  obtain ⟨t, ht, -⟩ := hordered a b ha' hb'
  have hlt := isBefore_eq_rank hfa hfb ht
  have hle := isBefore_eq_rank hfb hfa h.1
  have hle' : f.entity.keyRank a ≤ f.entity.keyRank b := by
    refine not_lt.mp fun hgt => ?_
    rw [linearly_lt hgt] at hle
    cases hle
  rcases hle'.lt_or_eq with hrank | hrank
  · rw [linearly_lt hrank] at hlt
    exact Or.inl (ht.trans (congrArg Except.ok hlt))
  · have hequal := Entity.equalItems_of_keyRank hfa hfb hrank
    refine Or.inr ⟨hequal, ?_⟩
    -- equal keys that are not told apart would be the same, at one place
    by_contra hapart
    exact h.2 ((Entity.sameKey_iff_place hfa hfb).mp ((sameKey_iff _ _).mpr ⟨hequal, hapart⟩))

/-! ## Refusing -/

theorem contains_iff_read (hc : f.entity.Formed c) :
    (f.contains (f.keyOf c) = true ↔ ∃ old, f.read (f.keyOf c) = .ok (some old)) ∧
      (f.contains (f.keyOf c) = false ↔ f.read (f.keyOf c) = .ok none) := by
  rw [read_of_formed hc, contains]
  cases f.find? (f.keyOf c) <;> simp

/-- A record without a form in the file is refused for that reason. -/
theorem coerce_ne_keyTaken {fault : Fault} (h : f.coerce r = .error fault) : fault ≠ .keyTaken := by
  rw [coerce] at h
  cases hc : f.entity.coerce r with
  | error reason =>
      rw [hc] at h
      cases h
      rintro ⟨⟩
  | ok c =>
      rw [hc] at h
      cases h

theorem refuses (f : File) : f.Refuses := by
  constructor
  case taken =>
    intro r
    rw [apply_write]
    cases hc : f.coerce r with
    | error fault =>
        refine iff_of_false (fun h => coerce_ne_keyTaken hc (Except.error.inj h)) ?_
        rintro ⟨_, _, ⟨⟩, -⟩
    | ok c =>
        have hcontains := (contains_iff_read (formed_of_coerce hc)).1
        simp only [Except.ok.injEq, exists_and_left, exists_eq_left', ← hcontains]
        cases f.contains (f.keyOf c) with
        | true => exact iff_of_true rfl rfl
        | false => exact iff_of_false (by rintro ⟨⟩) Bool.false_ne_true
  case missing =>
    intro r
    rw [apply_rewrite]
    cases hc : f.coerce r with
    | error fault =>
        refine iff_of_false (by rintro ⟨⟩) ?_
        rintro ⟨_, ⟨⟩, -⟩
    | ok c =>
        have hcontains := (contains_iff_read (formed_of_coerce hc)).2
        simp only [Except.ok.injEq, exists_eq_left', ← hcontains]
        cases f.contains (f.keyOf c) with
        | true => exact iff_of_false (by rintro ⟨⟩) Bool.true_eq_false.mp
        | false => exact iff_of_true rfl rfl
  case absent =>
    intro key
    rw [apply_delete, read, contains, ← List.isEmpty_iff]
    cases f.records.isEmpty with
    | true => exact iff_of_true rfl (Or.inl rfl)
    | false =>
        cases key.all canBeKey with
        | false => exact iff_of_false (by rintro ⟨⟩) (by simp)
        | true => cases f.find? key <;> simp
  case unchanged => exact fun op h => perform_keepsIf op f h

end File

/-! ## Runs -/

theorem File.Sound.settled {f : File} (hf : f.Sound) {r : Record} (hr : r ∈ f.records) :
    ∃ again, f.entity.coerce r = .ok again ∧ List.Forall₂ f.entity.Restates again r := by
  obtain ⟨again, hagain, -⟩ := Entity.coerce_of_formed (hf.formed r hr)
  exact ⟨again, hagain, Entity.restates_of_coerce (hf.formed r hr) hagain⟩

namespace Shelf.Mirrors

variable {e : Entity} {s : Shelf} {f : File}

/-- The keys of a dictionary stand for the places of its records. -/
theorem map_datum?_key (h : s.Mirrors e f) {slot : Slot} (hslot : slot ∈ s) :
    slot.key.map Value.datum? = e.place slot.record := by
  obtain ⟨hformed, hsame⟩ := h.keyed slot hslot
  exact (map_datum?_of_sameKey hformed hsame).symm

theorem apart (h : s.Mirrors e f) : s.Pairwise fun a b => sameKey a.key b.key = false := by
  have hplaces : s.Pairwise fun a b => e.place a.record ≠ e.place b.record := by
    have hf := h.sound.pairwise_place
    rw [← h.records, h.entity] at hf
    exact List.pairwise_map (f := Slot.record) (R := fun a b => e.place a ≠ e.place b) |>.mp hf
  refine hplaces.imp_of_mem fun {a b} ha hb hplace => ?_
  by_contra hsame
  rw [Bool.not_eq_false] at hsame
  refine hplace ?_
  rw [← h.map_datum?_key ha, ← h.map_datum?_key hb]
  exact (map_datum?_of_sameKey (h.keyed a ha).1 hsame).symm

theorem indexedBy (h : s.Mirrors e f) : f.IndexedBy e s := by
  obtain rfl := h.entity
  have hfound : ∀ key r, f.read key = .ok (some r) ↔
      r ∈ f.records ∧ Coincide (f.entity.keyOf r) key := fun key r => by
    rw [h.sound.read_eq_some_iff, sameKey_iff, File.keyOf]
  constructor
  case records => exact h.records
  case apart =>
    refine h.apart.imp fun {a b} hdiffer hequal => ?_
    by_contra hapart
    rw [(sameKey_iff _ _).mpr ⟨hequal, hapart⟩] at hdiffer
    cases hdiffer
  case keyed => exact fun slot hslot => (sameKey_iff _ _).mp (h.keyed slot hslot).2
  case settled => exact fun r hr => h.sound.settled hr
  case counted =>
    refine fun keys hkeys hread => h.sound.length_le (hkeys.imp fun {a b} hdiffer => ?_) hread
    exact Bool.eq_false_iff.mpr fun hsame => hdiffer ((sameKey_iff a b).mp hsame)
  case found => exact hfound
  case scanned =>
    intro hordered
    obtain ⟨rs, hrs, hperm, hpairwise⟩ := h.sound.scan hordered
    exact ⟨rs, hrs, hperm, hpairwise, fun key r => by rw [hfound, hperm.mem_iff]⟩

end Shelf.Mirrors

/-- A file of an entity with different field names and its dictionary give the same replies to all
operations, and whatever these are, the keys are different in the end, every record is found under its
key and is settled, a scan has the records in the order of their keys, and what is refused changes
nothing. -/
theorem keeps_index {e : Entity} (hnames : (e.fields.map (·.name)).Nodup) {initial : List Record}
    {f : File} (hf : File.ofRecords e initial = .ok f) (ops : List FileOp) :
    ∃ s, Shelf.ofRecords e initial = .ok s ∧ (s.applyAll e ops).1 = (f.applyAll ops).1 ∧
      (f.applyAll ops).2.IndexedBy e (s.applyAll e ops).2 ∧ (f.applyAll ops).2.Refuses := by
  obtain ⟨s, hs, hmirrors⟩ := (Shelf.Mirrors.empty hnames).setAll hf
  obtain ⟨hreplies, hrun⟩ := hmirrors.applyAll ops
  exact ⟨s, hs, hreplies, hrun.indexedBy, File.refuses _⟩

/-- Screws by their size, which has two digits after the point. -/
def screws : Entity :=
  ⟨"Screw", none, false, [⟨"Size", none, 10, 2, .numeric, true, true, false⟩]⟩

/-- The size one, written with so many digits after the point. -/
def sizeOne (digits : Nat) : Record := [("Size", .decimal (.finite false (10 ^ digits) (-digits)))]

/-- The second record takes the place of the first one, and a third one is added. -/
theorem keeps_index_screws :
    (screws.fields.map (·.name)).Nodup ∧
    File.ofRecords screws [sizeOne 1, sizeOne 2] = .ok ⟨screws, [sizeOne 2]⟩ ∧
    ∃ s, Shelf.ofRecords screws [sizeOne 1, sizeOne 2] = .ok s ∧
      (s.applyAll screws [.write [("Size", .int 3)], .delete [.int 2]]).1 = [.ok true, .ok false] := by
  have hnames : (screws.fields.map (·.name)).Nodup := by decide
  have hf : File.ofRecords screws [sizeOne 1, sizeOne 2] = .ok ⟨screws, [sizeOne 2]⟩ := by rfl
  obtain ⟨s, hs, hreplies, -⟩ :=
    keeps_index hnames hf [.write [("Size", .int 3)], .delete [.int 2]]
  exact ⟨hnames, hf, s, hs, hreplies.trans rfl⟩

/-- A record at midnight, where clocks are ahead by some microseconds. -/
def slotAt (ahead : Offset) : Record := [("T", midnightAhead ahead)]

/-- Keys that are told apart: a file keeps two records at midnight, whose keys are equal, and neither of
them comes before the other. -/
theorem equal_times_stored_twice :
    ∃ f, File.ofRecords slots [slotAt laterOffset, slotAt earlierOffset] = .ok f ∧
      f.records = [slotAt laterOffset, slotAt earlierOffset] ∧
      equalItems (f.keyOf (slotAt laterOffset)) (f.keyOf (slotAt earlierOffset)) = true ∧
      f.isBefore (slotAt laterOffset) (slotAt earlierOffset) = .ok false ∧
      f.isBefore (slotAt earlierOffset) (slotAt laterOffset) = .ok false :=
  ⟨⟨slots, [slotAt laterOffset, slotAt earlierOffset]⟩, rfl, rfl, by decide +kernel, rfl, rfl⟩

end Rowgate
