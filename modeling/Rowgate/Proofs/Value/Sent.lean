import Rowgate.Proofs.Encoding.Base64
import Rowgate.Proofs.Entity.Form
import Rowgate.Proofs.Entity.Moment
import Rowgate.Proofs.Json.Sending
import Rowgate.Proofs.Value.Respelling

/-!
# Values that come back

A client that gets a value as JSON has a text where the value has a moment or octets, and an integer
where it has an integral decimal (`Value.received`). When the client sends that back, the field that
the value came from takes it in a form that is written as before (`Field.coerce_received`).
-/

namespace Rowgate

namespace Value

/-! ## What a client reads -/

mutual

/-- The value with the texts that moments and octets are written as. -/
def spelled : Value → Value
  | .bytes octets => .str (String.ofList (Base64.encode octets))
  | .date d => .str (String.ofList d.iso)
  | .dateTime t =>
    .str (String.ofList (t.date.iso ++ 'T' :: (t.clock.iso ++ Json.offsetIfAny t.offset)))
  | .time t => .str (String.ofList (t.clock.iso ++ Json.offsetIfAny t.offset))
  | .list items => .list (spelledItems items)
  | .dict entries => .dict (spelledEntries entries)
  | v => v

/-- The items of a list with the texts that they are written as. -/
def spelledItems : List Value → List Value
  | [] => []
  | v :: vs => spelled v :: spelledItems vs

/-- The entries of a dictionary with the texts that they are written as. -/
def spelledEntries : List (String × Value) → List (String × Value)
  | [] => []
  | (k, v) :: es => (k, spelled v) :: spelledEntries es

end

/-- What a client reads of a value that it is sent. -/
def received (v : Value) : Value := v.spelled.reread

theorem spelledItems_eq_map (vs : List Value) : spelledItems vs = vs.map spelled := by
  induction vs with
  | nil => rfl
  | cons v vs ih => exact congrArg (v.spelled :: ·) ih

theorem spelledEntries_eq_map (es : List (String × Value)) :
    spelledEntries es = es.map fun e => (e.1, e.2.spelled) := by
  induction es with
  | nil => rfl
  | cons e es ih => exact congrArg ((e.1, e.2.spelled) :: ·) ih

mutual

theorem depth_spelled : ∀ v : Value, v.spelled.depth = v.depth
  | .list vs => congrArg (· + 1) (itemsDepth_spelled vs)
  | .dict es => congrArg (· + 1) (entriesDepth_spelled es)
  | .bytes _ | .date _ | .dateTime _ | .time _ | .null | .bool _ | .int _ | .decimal _ | .float _
  | .str _ => rfl

theorem itemsDepth_spelled : ∀ vs : List Value, itemsDepth (spelledItems vs) = itemsDepth vs
  | [] => rfl
  | v :: vs => by rw [spelledItems, itemsDepth, itemsDepth, depth_spelled v, itemsDepth_spelled vs]

theorem entriesDepth_spelled : ∀ es : List (String × Value),
    entriesDepth (spelledEntries es) = entriesDepth es
  | [] => rfl
  | (k, v) :: es => by
      rw [spelledEntries, entriesDepth, entriesDepth, depth_spelled v, entriesDepth_spelled es]

end

/-- Whether a value that is sent can be sent back: integers keep to the digit limit, texts hold no
half of a surrogate pair, and offsets have no parts of a minute. -/
inductive Returns : Value → Prop
  | null : Returns .null
  | bool (b : Bool) : Returns (.bool b)
  | int {i : Int} (h : digitCount i.natAbs ≤ digitLimit) : Returns (.int i)
  /-- The exponent of a decimal always lies in the range; an integral one keeps to the limit. -/
  | decimal {n : Bool} {c : Nat} {e : Int} (hr : Decimal.inRange c e = true)
      (hd : (Decimal.finite n c e).isIntegral = true →
        digitCount (Decimal.truncate n c e).natAbs ≤ digitLimit) :
      Returns (.decimal (.finite n c e))
  | str {s : String} (h : Text.Whole s.toList) : Returns (.str s)
  | bytes (octets : List UInt8) : Returns (.bytes octets)
  | date (d : Date) : Returns (.date d)
  | dateTime {t : DateTime} (h : ∀ o ∈ t.offset, o.WholeMinutes) : Returns (.dateTime t)
  | time {t : Time} (h : ∀ o ∈ t.offset, o.WholeMinutes) : Returns (.time t)
  | list {items : List Value} (h : ∀ v ∈ items, Returns v) : Returns (.list items)
  | dict {entries : List (String × Value)} (hnames : (Record.names entries).Nodup)
      (htexts : ∀ e ∈ entries, Text.Whole e.1.toList) (h : ∀ e ∈ entries, Returns e.2) :
      Returns (.dict entries)

namespace Returns

variable {v w : Value}

theorem render_spelled (h : v.Returns) : Json.render v.spelled = Json.render v := by
  induction h with
  | list _ ih => rw [spelled, spelledItems_eq_map, Json.render, Json.render, Json.renderItems_map ih]
  | dict _ _ _ ih =>
      rw [spelled, spelledEntries_eq_map, Json.render, Json.render, Json.renderEntries_map ih]
  | bytes | date | dateTime | time => rw [spelled, Json.render, Json.render, String.toList_ofList]
  | _ => rfl

theorem sendable (h : v.Returns) : Json.Sendable v := by
  induction h with
  | null => exact .null
  | bool b => exact .bool b
  | int _ => exact .int _
  | decimal _ hd => exact .finite hd
  | str h => exact .str h
  | bytes octets => exact .bytes octets
  | date d => exact .date d
  | dateTime _ => exact .dateTime _
  | time _ => exact .time _
  | list _ ih => exact .list ih
  | dict _ htexts _ ih => exact .dict htexts ih

theorem portable (h : v.Returns) : v.spelled.Portable := by
  induction h with
  | null => exact .null
  | bool b => exact .bool b
  | int h => exact .int h
  | decimal hr hd => exact .decimal hr hd
  | str h => exact .str h
  | bytes octets =>
      refine .str ?_
      rw [String.toList_ofList]
      exact Base64.forall_mem_encode (by decide) (by decide)
  | date d =>
      refine .str ?_
      rw [String.toList_ofList]
      exact fun c hc => (Iso.mem_dateIso hc).notes.visible.not_isHalf
  | dateTime h =>
      refine .str ?_
      rw [String.toList_ofList]
      exact fun c hc => (Iso.notes_dateTime _ _ _ c hc).visible.not_isHalf
  | time h =>
      refine .str ?_
      rw [String.toList_ofList]
      exact fun c hc => (Iso.notes_time _ _ c hc).visible.not_isHalf
  | list _ ih =>
      rw [spelled, spelledItems_eq_map]
      exact .list (List.forall_mem_map.mpr ih)
  | @dict entries hnames htexts _ ih =>
      have hsame : Record.names (entries.map fun e => (e.1, e.2.spelled)) = Record.names entries := by
        rw [Record.names, List.map_map]
        rfl
      rw [spelled, spelledEntries_eq_map]
      exact .dict (hsame ▸ hnames) (List.forall_mem_map.mpr htexts) (List.forall_mem_map.mpr ih)

theorem write_spelled (h : v.Returns) (hdepth : v.depth ≤ Json.depthLimit) :
    Json.write v.spelled = Json.write v := by
  rw [Json.write, Json.write, Json.writeWithin, Json.writeWithin, h.render_spelled,
    h.sendable.check_eq_ok hdepth,
    (Json.check_eq_ok_iff h.portable).mpr (v.depth_spelled.le.trans hdepth)]

/-- A value that can be sent back has a JSON text, and what a client reads in it is told. -/
theorem read_write (h : v.Returns) (hdepth : v.depth ≤ Json.depthLimit) :
    ∃ text, Json.write v = .ok text ∧ Json.read text.toList = .ok v.received := by
  obtain ⟨text, htext, -, hread⟩ :=
    Json.read_write h.portable (v.depth_spelled.le.trans hdepth)
  exact ⟨text, (h.write_spelled hdepth).symm.trans htext, hread⟩

/-- Values of which the same is read back are written in the same way. -/
theorem write_eq (hv : v.Returns) (hw : w.Returns) (hdepth : v.depth ≤ Json.depthLimit)
    (h : w.reread = v.reread) : Json.write w = Json.write v := by
  have hrender : Json.render w = Json.render v := by
    rw [← hw.sendable.render_reread, h, hv.sendable.render_reread]
  have hdepth' : w.depth ≤ Json.depthLimit := by
    rw [← w.depth_reread, h, v.depth_reread]
    exact hdepth
  rw [Json.write, Json.write, Json.writeWithin, Json.writeWithin, hrender, hv.sendable.check_eq_ok hdepth,
    hw.sendable.check_eq_ok hdepth']

end Returns

end Value

/-! ## What a field takes -/

theorem toBytes_encode (octets : List UInt8) :
    toBytes (.str (String.ofList (Base64.encode octets))) = .ok octets := by
  have hascii : (Base64.encode octets).all (fun c => c.toNat < 128) = true :=
    List.all_eq_true.mpr (Base64.forall_mem_encode (by decide) (by decide))
  rw [toBytes, String.toList_ofList, if_pos hascii, Base64.decode?_encode]

theorem Decimal.inRange_of_digitCount {c : Nat} (h : digitCount c ≤ digitLimit) :
    Decimal.inRange c 0 = true := by
  rw [digitLimit] at h
  rw [Decimal.inRange, Bool.and_eq_true, decide_eq_true_eq, decide_eq_true_eq]
  refine ⟨by decide, ?_⟩
  split
  · decide
  · rw [Decimal.leadingPower, Decimal.maxExponent]
    omega

theorem Value.Returns.reread {v : Value} (h : v.Returns) (hv : v.isScalar = true) :
    v.reread.Returns := by
  cases h with
  | @decimal n c e hr hd =>
      rw [Value.reread, Decimal.reread]
      split
      · next hi => exact .int (hd hi)
      · exact .decimal hr hd
  | list | dict => cases hv
  | null => exact .null
  | bool b => exact .bool b
  | int h => exact .int h
  | str h => exact .str h
  | bytes octets => exact .bytes octets
  | date d => exact .date d
  | dateTime h => exact .dateTime h
  | time h => exact .time h

namespace Fits

variable {k : FieldKind} {v w : Value}

theorem isScalar (h : Fits k v) : v.isScalar = true := by cases h <;> rfl

/-- What is read back of a value has the form that the value has. -/
theorem reread (h : Fits k v) : Fits k v.reread := by
  cases h with
  | decimal n c e =>
      rw [Value.reread, Decimal.reread]
      split
      · exact .int _
      · exact .decimal n c e
  | int i => exact .int i
  | str s => exact .str s
  | bytes octets => exact .bytes octets
  | date d => exact .date d
  | dateTime t => exact .dateTime t
  | time t => exact .time t

/-- A number that passes through a field is read back as before, and it can be sent back again. -/
theorem toNumber_returns {scale : Int} (h : Fits .numeric v) (hv : v.Returns)
    (hw : toNumber scale v = .ok w) : w.reread = v.reread ∧ w.Returns := by
  cases h with
  | int i =>
      cases hv with
      | int hi =>
          cases hw
          -- where decimals are asked for, the integer becomes one, and is read back as an integer
          split
          · exact ⟨rfl, .int hi⟩
          · refine ⟨Decimal.reread_ofInt i, .decimal (Decimal.inRange_of_digitCount hi) fun _ => ?_⟩
            rwa [Decimal.truncate_ofInt]
  | decimal n c e =>
      cases hv with
      | decimal hr hd =>
          rw [toNumber, numberOfDecimal] at hw
          split at hw
          · next hi =>
              cases hw
              refine ⟨?_, .int (hd hi.2)⟩
              show Value.int (Decimal.truncate n c e) = Decimal.reread (.finite n c e)
              rw [Decimal.reread, if_pos hi.2]
          · cases hw
            exact ⟨rfl, .decimal hr hd⟩

theorem toNumber_received {scale : Int} (h : Fits .numeric v) (hv : v.Returns) :
    ∃ w, toNumber scale v.received = .ok w ∧ w.reread = v.reread ∧ w.Returns := by
  have hreceived : v.received = v.reread := by cases h <;> rfl
  obtain ⟨w, hw, -⟩ := toNumber_of_fits scale h.reread
  obtain ⟨hreread, hreturns⟩ := h.reread.toNumber_returns (hv.reread h.isScalar) hw
  exact ⟨w, hreceived ▸ hw, hreread.trans v.reread_reread, hreturns⟩

theorem isNull_received (h : Fits k v) : v.received.isNull = false := by
  rw [Value.received, Value.isNull_reread]
  cases h <;> rfl

end Fits

namespace Field

variable {f : Field} {v w : Value}

theorem coerceSome_received (hv : Fits f.kind v) (h : v.Returns) :
    ∃ w, f.coerceSome v.received = .ok w ∧ w.reread = v.reread ∧ w.Returns := by
  rw [coerceSome]
  generalize f.kind = k at hv ⊢
  cases hv with
  | str s => exact ⟨.str s, rfl, rfl, h⟩
  | int i => exact Fits.toNumber_received (.int i) h
  | decimal n c e => exact Fits.toNumber_received (.decimal n c e) h
  | date d => exact ⟨.date d, congrArg (·.map Value.date) (toDate_sent d), rfl, h⟩
  | bytes octets =>
      exact ⟨.bytes octets, congrArg (·.map Value.bytes) (toBytes_encode octets), rfl, h⟩
  | dateTime t =>
      cases h with
      | dateTime h =>
          have hread := congrArg (·.map Value.dateTime) (readTimestamp_sent t h)
          exact ⟨.dateTime t, hread, rfl, .dateTime h⟩
  | time t =>
      cases h with
      | time h =>
          have hread := congrArg (·.map Value.time) (toTime_sent t h)
          exact ⟨.time t, hread, rfl, .time h⟩

/-- What a client reads of a value of a field is taken by the field, in a form of which the same is
read back. -/
theorem coerce_received (hv : f.Holds v) (h : v.Returns) :
    ∃ w, f.coerce v.received = .ok w ∧ w.reread = v.reread ∧ w.Returns := by
  rcases hv with rfl | hv
  · exact ⟨.null, rfl, rfl, .null⟩
  · rw [coerce_of_not_null hv.isNull_received]
    exact coerceSome_received hv h

/-- A value in the form of a field that is brought to that form again is read back as before. -/
theorem coerce_returns (hv : f.Holds v) (h : v.Returns) (hw : f.coerce v = .ok w) :
    w.reread = v.reread ∧ w.Returns := by
  obtain ⟨_, hw', -, -, -, hsame⟩ := coerce_of_holds hv
  cases hw.symm.trans hw'
  by_cases hk : f.kind = .numeric
  · rcases hv with rfl | hv
    · cases hw
      exact ⟨rfl, .null⟩
    · rw [coerce_of_not_null hv.not_null, coerceSome, hk] at hw
      rw [hk] at hv
      exact hv.toNumber_returns h hw
  · rw [hsame hk]
    exact ⟨rfl, h⟩

end Field

end Rowgate
