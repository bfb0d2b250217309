import Rowgate.Cache.Reading
import Rowgate.Log

/-!
# Caches

A cache keeps values that take time to load, by key. A value is fresh for a time after it was
stored, and every hit on a fresh value lets it stay fresh for that time again. A value that is no
longer fresh stays in the cache until it is replaced or invalidated, but is not answered.

How long values stay fresh, and until when, are floating point numbers, so the end of that time is
rounded, and a value cannot be stored at a time that is too large to be such a number.
-/

namespace Rowgate

/-- A value and the time from which on it is no longer fresh. -/
structure CacheEntry (V : Type) where
  value : V
  expires : Binary64

/-- A cache with its clock; times are in seconds. -/
structure Cache (V : Type) where
  /-- How long a value stays fresh. -/
  ttl : Binary64
  now : Reading
  entries : List (String × CacheEntry V)

namespace Cache

variable {V : Type}

/-- A cache without values whose clock starts at zero. -/
def empty (ttl : Binary64) : Cache V := ⟨ttl, .whole 0, []⟩

/-- The number of seconds of a time to stay fresh. -/
def ttlOf (seconds : Int) : Except Fault Binary64 :=
  match Binary64.ofInt? seconds with
  | some ttl => .ok ttl
  | none => .error .tooLarge

/-- The number of days of a duration must have no more than nine digits. -/
def longestDuration : Int := 999999999

def ttlOfDuration (seconds : Int) : Except Fault Binary64 :=
  if (seconds.fdiv 86400).natAbs ≤ longestDuration then ttlOf seconds else .error .tooLarge

def find? (c : Cache V) (key : String) : Option (CacheEntry V) := c.entries.lookup key

/-- Whether there is an entry of a key, fresh or not. -/
def contains (c : Cache V) (key : String) : Bool := (c.find? key).isSome

def keys (c : Cache V) : List String := c.entries.map (·.1)

def size (c : Cache V) : Nat := c.entries.length

def isEmpty (c : Cache V) : Bool := c.entries.isEmpty

/-- Puts an entry in the place of the entry of a key. -/
def put (c : Cache V) (key : String) (e : CacheEntry V) : Cache V :=
  { c with entries := (key, e) :: c.entries.filter (·.1 != key) }

/-- Until when a value is fresh that is stored now. -/
def expiry? (c : Cache V) : Option Binary64 := c.now.after? c.ttl

/-- Puts a value in the place of the entry of a key; it is fresh from now on. -/
def store (c : Cache V) (key : String) (value : V) : Except Fault (Cache V) :=
  match c.expiry? with
  | some expires => .ok (c.put key ⟨value, expires⟩)
  | none => .error .tooLarge

def fresh? (c : Cache V) (key : String) : Option V :=
  match c.find? key with
  | some e => if c.now.hasReached e.expires then none else some e.value
  | none => none

/-- Removes the entry of a key, or every entry. -/
def invalidate (c : Cache V) (key : Option String) : Cache V :=
  match key with
  | some key => { c with entries := c.entries.filter (·.1 != key) }
  | none => { c with entries := [] }

def setClock (c : Cache V) (now : Reading) : Cache V := { c with now }

/-- The entry about a hit on a fresh value. -/
def hitEntry (key : String) : Entry := ⟨.cache, .debug, "Metadata cache hit: " ++ key⟩

/-- The entry about a value that was loaded; `count` is how many parts it has. -/
def loadedEntry (key : String) (count : Int) (seconds : Reading) : Entry :=
  ⟨.cache, .info, "Refreshed metadata for " ++ key ++ " (" ++ toString count ++ " entities, " ++
    seconds.text ++ "s)"⟩

/-- What is fresh is in the cache. -/
theorem find?_of_fresh? {c : Cache V} {key : String} {value : V}
    (h : c.fresh? key = some value) : ∃ e, c.find? key = some e ∧ e.value = value := by
  rw [fresh?] at h
  split at h
  · next e he =>
      split at h
      · cases h
      · exact ⟨e, he, Option.some_inj.mp h⟩
  · cases h

theorem find?_put_self (c : Cache V) (key : String) (e : CacheEntry V) :
    (c.put key e).find? key = some e := by
  simp [put, find?]

theorem lookup_filter_ne {key other : String} (h : other ≠ key)
    (entries : List (String × CacheEntry V)) :
    (entries.filter (·.1 != key)).lookup other = entries.lookup other := by
  induction entries with
  | nil => rfl
  | cons e rest ih =>
    obtain ⟨k, v⟩ := e
    by_cases hk : k = key
    · subst hk
      simp only [bne_self_eq_false, Bool.false_eq_true, not_false_eq_true, List.filter_cons_of_neg]
      rw [ih, List.lookup_cons, beq_false_of_ne h]
    · rw [List.filter_cons_of_pos (by simpa using hk), List.lookup_cons, List.lookup_cons, ih]

theorem find?_put_of_ne (c : Cache V) {key other : String} (e : CacheEntry V) (h : other ≠ key) :
    (c.put key e).find? other = c.find? other := by
  simp only [put, find?, List.lookup_cons, beq_false_of_ne h]
  exact lookup_filter_ne h c.entries

/-- An invalidation leaves no entry of the keys that it is for. -/
theorem find?_invalidate (c : Cache V) {forgotten : Option String} {key : String}
    (h : ∀ k ∈ forgotten, k = key) : (c.invalidate forgotten).find? key = none := by
  cases forgotten with
  | none => rfl
  | some k =>
    obtain rfl := h k rfl
    rw [find?, invalidate, List.lookup_eq_none_iff]
    intro p hp
    have hne : p.1 ≠ k := by simpa using (List.mem_filter.mp hp).2
    exact bne_iff_ne.mpr hne.symm

/-- What is left after an invalidation was there before. -/
theorem find?_of_invalidate {c : Cache V} {forgotten : Option String} {key : String}
    {e : CacheEntry V} (h : (c.invalidate forgotten).find? key = some e) : c.find? key = some e := by
  cases forgotten with
  | none => cases h
  | some k =>
    by_cases hk : key = k
    · rw [find?_invalidate c fun k' hk' => (Option.mem_some.mp hk').symm.trans hk.symm] at h
      cases h
    · rw [← h, find?, find?, invalidate, lookup_filter_ne hk]

/-- A value can be stored exactly if the time until which it is fresh can be told. -/
theorem store_eq_ok_iff {c c' : Cache V} {key : String} {value : V} :
    c.store key value = .ok c' ↔ ∃ t, c.expiry? = some t ∧ c' = c.put key ⟨value, t⟩ := by
  unfold store
  cases c.expiry? with
  | none => simp
  | some t => simp [eq_comm]

/-- What a cache has after a value was stored is that value, or was there before. -/
theorem find?_of_store {c c' : Cache V} {key other : String} {value : V} {e : CacheEntry V}
    (h : c.store key value = .ok c') (he : c'.find? other = some e) :
    (other = key ∧ e.value = value) ∨ c.find? other = some e := by
  obtain ⟨t, -, rfl⟩ := store_eq_ok_iff.mp h
  by_cases hkey : other = key
  · rw [hkey, find?_put_self, Option.some_inj] at he
    exact .inl ⟨hkey, he ▸ rfl⟩
  · rw [find?_put_of_ne c _ hkey] at he
    exact .inr he

theorem store_eq_error_iff {c : Cache V} {key : String} {value : V} {f : Fault} :
    c.store key value = .error f ↔ c.expiry? = none ∧ f = .tooLarge := by
  unfold store
  cases c.expiry? with
  | none => simp [eq_comm]
  | some t => simp

end Cache

end Rowgate
