import NativeGlue.Overlay.Record

/-!
# The store of overrides

All records by the key of their declaration. A record under the bare name of a method is about all
methods of the name; one under the exact key of a method is joined to it and wins.
-/

namespace NativeGlue.Overlay

/-- Records by key, in the order in which their keys came up. -/
structure Store where
  records : List (String × Record) := []
  deriving DecidableEq, Repr, Inhabited

namespace Store

/-- The record of a key. -/
def get? (s : Store) (key : String) : Option Record := s.records.lookup key

/-- Whether there is a record of a key. -/
def contains (s : Store) (key : String) : Bool := (s.get? key).isSome

/-- The number of records. -/
def size (s : Store) : Nat := s.records.length

/-- The keys in order. -/
def keys (s : Store) : List String := (s.records.map (·.1)).mergeSort (fun a b => decide (a ≤ b))

/-- Adds a record, joined to the one that stands under its key. -/
def addTo (r : Record) : List (String × Record) → List (String × Record)
  | [] => [(r.key, r)]
  | (k, e) :: rest => if k = r.key then (k, e.merge r) :: rest else (k, e) :: addTo r rest

/-- The store with a further record. -/
def add (s : Store) (r : Record) : Store := ⟨addTo r s.records⟩

/-- The store of records as they come. -/
def ofRecords (rs : List Record) : Store := rs.foldl add {}

/-- What the store says about a declaration. -/
def lookup (s : Store) (i : Identity) : Option Record :=
  let exact := s.get? i.key
  let bare := if i.baseKey = i.key then none else s.get? i.baseKey
  match exact, bare with
  | some e, some b => some (b.merge e)
  | some e, none => some e
  | none, b => b

/-- The classes that a record about a struct class is about. -/
def structClassNames (s : Store) : List String :=
  (s.records.filterMap fun (k, r) => if r.kind = .struct then some k else none).mergeSort
    (fun a b => decide (a ≤ b))

/-- The keys that no declaration goes by. -/
def unmatchedKeys (s : Store) (identities : List Identity) : List String :=
  s.keys.filter fun k => !identities.any fun i => i.key == k || i.baseKey == k

theorem get?_addTo_self (r : Record) (rs : List (String × Record)) :
    (addTo r rs).lookup r.key = some (match rs.lookup r.key with
      | some e => e.merge r
      | none => r) := by
  induction rs with
  | nil => simp [addTo]
  | cons x rest ih =>
    obtain ⟨k, e⟩ := x
    by_cases h : k = r.key
    · subst h
      simp [addTo]
    · have h' : (r.key == k) = false := by simpa using Ne.symm h
      simp [addTo, h, List.lookup_cons, h', ih]

theorem get?_addTo_ne {key : String} {r : Record} (h : key ≠ r.key) (rs : List (String × Record)) :
    (addTo r rs).lookup key = rs.lookup key := by
  induction rs with
  | nil =>
    have h' : (key == r.key) = false := by simpa using h
    simp [addTo, List.lookup_cons, h']
  | cons x rest ih =>
    obtain ⟨k, e⟩ := x
    by_cases hk : k = r.key
    · subst hk
      have h' : (key == r.key) = false := by simpa using h
      simp [addTo, List.lookup_cons, h']
    · by_cases hq : key = k
      · subst hq
        simp [addTo, hk]
      · have h' : (key == k) = false := by simpa using hq
        simp [addTo, hk, List.lookup_cons, h', ih]

end Store

end NativeGlue.Overlay
