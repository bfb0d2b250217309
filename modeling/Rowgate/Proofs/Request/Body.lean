import Rowgate.Proofs.Json.Acceptance
import Rowgate.Request.Body

/-!
# The bodies that are decoded

A body is decoded if it is a JSON object, and otherwise its fault says what is wrong with the body.
The one exception are bodies that are hindered: where a number is too large for the reader, or
brackets lie too deep, the fault is the reader's own and says nothing of the body, whether or not the
rest of it is as it should be.
-/

namespace Rowgate.Body

variable {b : Body} {cs : List Char}

/-- The text of a body: its characters, or what its octets say in the encoding that they are in. -/
def text? : Body → Option (List Char)
  | .absent => none
  | .text s => some s.toList
  | .octets os => (decodeBody (os.map UInt8.toNat)).toOption

/-- Whether the text of a body goes beyond the limits of the reader before it is malformed. -/
def Hindered (b : Body) : Prop := ∃ cs, b.text? = some cs ∧ Json.Hindered cs

/-- Whether a fault says what is wrong with a body. -/
def IsFault (f : Fault) : Prop := ∃ message, f = fault message

/-- What the outcome of decoding a body tells of its text. -/
structure Decoded (cs : List Char) (outcome : Except Fault Record) : Prop where
  object : ¬ Json.Hindered cs → ∀ entries, outcome = .ok entries ↔ Json.IsJson cs (.dict entries)
  other : ¬ Json.Hindered cs → ∀ f, outcome = .error f → IsFault f
  limit : Json.Hindered cs → ∃ f, outcome = .error f ∧ f.IsLimit

/-- What is left of a value that was read, if it is a dictionary. -/
theorem decoded_of_read {r : Except Json.Refusal Value}
    (hread : ¬ Json.Hindered cs → ∀ v, r = .ok v ↔ Json.IsJson cs v)
    (hlimit : Json.Hindered cs ↔ ∃ e, r = .error e ∧ e.isMalformed = false) :
    Decoded cs ((r.mapError (Fault.ofRefusal malformed)).bind fun
      | .dict entries => .ok entries
      | _ => .error (fault "Expected a JSON object")) := by
  cases r with
  | error e =>
      cases hmalformed : e.isMalformed with
      | false =>
          have hhindered := hlimit.mpr ⟨e, rfl, hmalformed⟩
          exact ⟨absurd hhindered, absurd hhindered,
            fun _ => ⟨_, rfl, Fault.isLimit_ofRefusal hmalformed malformed⟩⟩
      | true =>
          have hfree : ¬ Json.Hindered cs := by
            rw [hlimit]
            rintro ⟨_, ⟨⟩, hnot⟩
            rw [hmalformed] at hnot
            cases hnot
          refine ⟨fun _ entries => ⟨nofun, fun hjson => ?_⟩, ?_, fun h => absurd h hfree⟩
          · cases (hread hfree _).mpr hjson
          · rintro _ _ ⟨⟩
            exact ⟨_, Fault.ofRefusal_of_malformed hmalformed malformed⟩
  | ok v =>
      have hfree : ¬ Json.Hindered cs := by
        rw [hlimit]
        exact nofun
      have hv := (hread hfree v).mp rfl
      have hunique : ∀ w, Json.IsJson cs w → v = w := fun w hw =>
        Except.ok.inj ((hread hfree w).mpr hw)
      refine ⟨fun _ entries => ⟨fun h => ?_, fun h => ?_⟩, fun _ f h => ?_, fun h => absurd h hfree⟩
      · cases v with
        | dict entries' =>
            cases h
            exact hv
        | _ => cases h
      · rw [hunique _ h]
        rfl
      · cases v with
        | dict => cases h
        | _ =>
            cases h
            exact ⟨_, rfl⟩

/-- An empty text is no JSON text, and it is not hindered. -/
theorem decoded_nil : Decoded [] (.error (fault "Request body is empty")) := by
  have hread : Json.readDecoded [] = .error (Json.refusal [] (.malformed .value 0)) := rfl
  have hfree : ¬ Json.Hindered [] := by
    rw [Json.readDecoded_hindered_iff, hread]
    rintro ⟨_, ⟨⟩, ⟨⟩⟩
  refine ⟨fun _ entries => ⟨nofun, fun h => ?_⟩, ?_, fun h => absurd h hfree⟩
  · rw [← Json.readDecoded_iff_isJson hfree, hread] at h
    cases h
  · rintro _ _ ⟨⟩
    exact ⟨_, rfl⟩

/-- A body with a text is decoded as its text is read. -/
theorem decoded_of_text (h : b.text? = some cs) : Decoded cs b.decode := by
  rw [decode]
  split
  · next hempty =>
      have hnil : cs = [] := by
        cases b with
        | absent => cases h
        | text s =>
            cases h
            rw [String.isEmpty_iff.mp hempty]
            rfl
        | octets os =>
            rw [List.isEmpty_iff.mp hempty] at h
            cases h
            rfl
      rw [hnil]
      exact decoded_nil
  · cases b with
    | absent => cases h
    | text s =>
        cases h
        exact decoded_of_read (fun hfree _ => Json.read_iff_isJson hfree) Json.read_hindered_iff
    | octets os =>
        rw [text?] at h
        cases hdecode : decodeBody (os.map UInt8.toNat) with
        | error f =>
            rw [hdecode] at h
            cases h
        | ok cs' =>
            rw [hdecode] at h
            cases h
            rw [read, hdecode]
            exact decoded_of_read (fun hfree _ => Json.readDecoded_iff_isJson hfree)
              Json.readDecoded_hindered_iff

/-- A body without a text has a fault. -/
theorem decode_of_text_none (h : b.text? = none) : ∃ f, b.decode = .error f ∧ IsFault f := by
  rw [decode]
  split
  · exact ⟨_, rfl, _, rfl⟩
  · cases b with
    | absent => exact ⟨_, rfl, _, rfl⟩
    | text s => cases h
    | octets os =>
        rw [text?] at h
        cases hdecode : decodeBody (os.map UInt8.toNat) with
        | error f =>
            rw [read, hdecode]
            exact ⟨_, rfl, _, rfl⟩
        | ok cs =>
            rw [hdecode] at h
            cases h

/-- A body that nothing hinders is decoded if and only if it is a JSON object, to the entries of this
object, and any other has a fault that says so. A hindered one has the fault of the limit. -/
theorem decodes_objects (b : Body) :
    (¬ b.Hindered →
      (∀ entries, b.decode = .ok entries ↔
        ∃ cs, b.text? = some cs ∧ Json.IsJson cs (.dict entries)) ∧
      ∀ f, b.decode = .error f → IsFault f) ∧
    (b.Hindered → ∃ f, b.decode = .error f ∧ f.IsLimit) := by
  cases htext : b.text? with
  | none =>
      obtain ⟨f, hdecode, hf⟩ := decode_of_text_none htext
      rw [hdecode]
      refine ⟨fun _ => ⟨fun entries => ⟨nofun, ?_⟩, ?_⟩, ?_⟩
      · rintro ⟨cs, ⟨⟩, -⟩
      · rintro _ ⟨⟩
        exact hf
      · rintro ⟨cs, heq, -⟩
        rw [htext] at heq
        cases heq
  | some cs =>
      have hdecoded := decoded_of_text htext
      have hhindered : b.Hindered ↔ Json.Hindered cs := by
        rw [Hindered, htext]
        exact ⟨fun ⟨_, heq, h⟩ => Option.some.inj heq ▸ h, fun h => ⟨cs, rfl, h⟩⟩
      rw [hhindered]
      refine ⟨fun hfree => ⟨fun entries => ?_, hdecoded.other hfree⟩, hdecoded.limit⟩
      rw [hdecoded.object hfree entries]
      exact ⟨fun h => ⟨cs, rfl, h⟩, fun ⟨_, heq, h⟩ => Option.some.inj heq ▸ h⟩

/-! ## Objects with one number -/

/-- The label of the only member of an object. -/
def label : Json.Label where
  before := []
  quoted := ['N']
  gap := []
  name := ['N']
  blankBefore := Json.blank_nil
  isName := .plain (by decide) (by decide) (by decide) .nil
  blankGap := Json.blank_nil

/-- The text of an object whose only member is a number. -/
def single (n : Json.Numeral) : String :=
  String.ofList ('\x7b' :: (label.written ++ (n.text ++ ['\x7d'])))

theorem spells_single {P : Json.Numeral → Prop} {n : Json.Numeral} (h : P n) (depth : Nat) :
    Json.SpellsAll P (depth + 1) (single n).toList (.dict [("N", n.value)]) := by
  let m : Json.Member := ⟨label, ⟨[], n.text, [], n.value, Json.blank_nil, Json.blank_nil⟩⟩
  have hmember : Json.Spells P (depth + 1)
      ('\x7b' :: (Json.joined ([m].map Json.Member.written) ++ ['\x7d']))
      (.dict (Record.ofEntries ([m].map Json.Member.entry))) :=
    .members (List.cons_ne_nil _ _) (List.forall_mem_singleton.mpr (.number n h))
  refine ⟨⟨[], _, [], _, Json.blank_nil, Json.blank_nil⟩, ?_, rfl, hmember⟩
  rw [single, String.toList_ofList]
  simp [m, Json.joined, Json.Member.written, Json.Item.written]

/-- The number one. -/
def one : Json.Numeral where
  negative := false
  whole := ['1']
  fraction := []
  power := none
  areWhole := List.forall_mem_singleton.mpr rfl
  start := by decide
  areFraction := nofun

/-- The object `{"N":1}` is decoded. -/
theorem decodes_objects_one : (Body.text (single one)).decode = .ok [("N", .int 1)] := by
  have hspells : Json.SpellsAll Json.Numeral.Readable Json.nestingLimit (single one).toList
      (.dict [("N", one.value)]) := spells_single (by decide) 989
  have hfree : ¬ (Body.text (single one)).Hindered := by
    rintro ⟨_, ⟨⟩, hhindered⟩
    exact hspells.not_hindered hhindered
  exact (((decodes_objects (.text (single one))).1 hfree).1 _).mpr ⟨_, rfl, hspells.isJson⟩

/-- A number whose exponent is beyond all decimals. -/
def huge : Json.Numeral where
  negative := false
  whole := ['1']
  fraction := []
  power := some {
    mark := 'E'
    sign := ['+']
    digits := '1' :: List.replicate 18 '0'
    isMark := Or.inr rfl
    isSign := Or.inr (Or.inl rfl)
    areDigits := List.forall_mem_cons.mpr ⟨rfl, fun d hd => List.eq_of_mem_replicate hd ▸ rfl⟩
    nonempty := by decide }
  areWhole := List.forall_mem_singleton.mpr rfl
  start := by decide
  areFraction := nofun

example : single huge = "\x7b\"N\":1E+1000000000000000000\x7d" := by decide

/-- An object with a number that is too large is a JSON text, and yet it is neither decoded nor refused
with a fault that says what is wrong with the body. -/
theorem huge_not_decoded :
    Json.IsJson (single huge).toList
        (.dict [("N", .decimal (.finite false 1 1000000000000000000))]) ∧
      ∃ f, (Body.text (single huge)).decode = .error f ∧ ¬ IsFault f := by
  have hjson := (spells_single (P := fun _ => True) (n := huge) trivial 0).isJson
  refine ⟨hjson, ?_⟩
  have hunreadable : ¬ huge.Readable := by decide
  have hstuck : Json.Stuck Json.nestingLimit (single huge).toList := by
    rw [single, String.toList_ofList]
    have hnumber : Json.Stuck 989 (huge.text ++ ['\x7d']) :=
      .number huge hunreadable ((Json.Delimited.brace []).endsBefore huge)
    have hmember := Json.Stuck.member [] (List.forall_mem_nil _) label Json.blank_nil hnumber
    exact hmember
  obtain ⟨f, hdecode, hlimit⟩ := (decoded_of_text (b := .text (single huge)) rfl).limit
    ⟨[], _, rfl, Json.blank_nil, hstuck⟩
  refine ⟨f, hdecode, ?_⟩
  rintro ⟨message, rfl⟩
  exact hlimit

end Rowgate.Body
