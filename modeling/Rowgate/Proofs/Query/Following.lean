import Rowgate.Proofs.Query.Parsed
import Rowgate.Proofs.Query.RoundTrip
import Rowgate.Proofs.Store.Alike

/-!
# The query that a link leads to

A link to the page that follows is a query string, so what it leads to is a query that was read back:
without the parts of the filter that have no effect, and with the conditions as JSON gives them back.
`Query.following` is that query. It can be followed itself in the same way, because what was read back
once is not changed again.
-/

namespace Rowgate

theorem digitCount_mono {a b : Nat} (h : a ≤ b) : digitCount a ≤ digitCount b :=
  (Nat.length_toDigits_le_iff (by omega) (digitCount_pos b)).mpr
    (Nat.lt_of_le_of_lt h (lt_pow_digitCount b))

theorem Test.Steady.reread (fields : List Field) (t : Test) : t.reread.Steady fields := fun _ =>
  congrArg Value.plainText (Value.reread_reread t.value)

theorem Test.Portable.reread {t : Test} (h : t.Portable) : t.reread.Portable := ⟨h.1, h.2.reread⟩

namespace Query

variable {q : Query} {fields : List Field}

/-- Whether a link to a page of a query can be written, and is read back as a query for the same
records. -/
structure Linkable (fields : List Field) (q : Query) : Prop where
  sort : ∀ k ∈ q.sort, Text.Whole k.field.toList
  portable : ∀ f, q.filter = some f → f.AllTests Test.Portable
  steady : ∀ f, q.filter = some f → f.AllTests (Test.Steady fields)
  depth : ∀ f, q.filter = some f → f.toValue.depth ≤ Json.depthLimit
  search : ∀ s, q.search = .str s → Text.Whole s.toList

/-- The query for the page that follows, as it is read back. -/
def following (q : Query) : Query :=
  { q.next with filter := q.filter.map fun f => f.tidied.reread }

theorem Parsed.following (h : q.Parsed) : q.following.Parsed where
  filter := by
    intro g hg
    obtain ⟨f, hf, rfl⟩ := Option.map_eq_some_iff.mp hg
    exact (h.filter f hf).reread fun _ ht => ht
  search := h.search

theorem Linkable.following (h : q.Linkable fields) : q.following.Linkable fields where
  sort := h.sort
  portable := by
    intro g hg
    obtain ⟨f, hf, rfl⟩ := Option.map_eq_some_iff.mp hg
    exact (h.portable f hf).reread fun _ ht => ht.reread
  steady := by
    intro g hg
    obtain ⟨f, hf, rfl⟩ := Option.map_eq_some_iff.mp hg
    exact (h.steady f hf).reread fun t _ => .reread fields t
  depth := by
    intro g hg
    obtain ⟨f, hf, rfl⟩ := Option.map_eq_some_iff.mp hg
    rw [Filter.depth_reread_tidied]
    exact h.depth f hf
  search := h.search

/-- Parts of a filter that have no effect are not written. -/
theorem toText_tidied (q : Query) :
    toText { q with filter := q.filter.map Filter.tidied } = q.toText := by
  have hpairs : toPairs { q with filter := q.filter.map Filter.tidied } = q.toPairs := by
    rw [toPairs, toPairs]
    cases q.filter with
    | none => rfl
    | some f => simp only [Option.map_some, Filter.toValue_tidied]
  rw [toText, toText, hpairs]

/-- The link to the page that follows is written, and it leads there. -/
theorem nextText_reads (hparsed : q.Parsed) (hlink : q.Linkable fields) (htake : 0 < q.take)
    (hdigits : digitCount (q.skip + q.take) ≤ digitLimit) :
    ∃ text, q.nextText = .ok (some text) ∧ ofText text = .ok (some q.following) := by
  -- The query is written as if its filter were tidy, and only a tidy filter is known to come back.
  have hportable : Portable { q.next with filter := q.filter.map Filter.tidied } := by
    refine ⟨le_trans (digitCount_mono (Nat.le_add_left _ _)) hdigits, hdigits, hlink.sort, ?_, ?_⟩
    · intro g hg
      obtain ⟨f, hf, rfl⟩ := Option.map_eq_some_iff.mp hg
      exact ((hparsed.filter f hf).and (hlink.portable f hf)).tidy
    · exact hparsed.search.imp_right fun ⟨s, hs, hne⟩ => ⟨s, hs, hne, hlink.search s hs⟩
  have hdepth : ∀ g, q.filter.map Filter.tidied = some g → g.toValue.depth ≤ Json.depthLimit := by
    intro g hg
    obtain ⟨f, hf, rfl⟩ := Option.map_eq_some_iff.mp hg
    rw [Filter.toValue_tidied]
    exact hlink.depth f hf
  have hsome : { q.next with filter := q.filter.map Filter.tidied } ≠ everything := fun heq =>
    absurd (congrArg Query.take heq) (Nat.ne_of_gt htake)
  obtain ⟨text, hwrite, hread⟩ := ofText_toText hportable hdepth hsome
  refine ⟨text, ?_, ?_⟩
  · rw [nextText, if_neg (Nat.ne_of_gt htake), ← toText_tidied]
    show (toText { q.next with filter := q.filter.map Filter.tidied }).map some = _
    rw [hwrite]
    rfl
  · rw [hread, reread, following, Option.map_map]
    rfl

end Query

end Rowgate
