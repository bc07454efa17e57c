/-
**Ordered maps.** A finite map kept as a list of entries in strictly ascending key order, for an
arbitrary strict total order on the keys. The order is a field of the structure, so an unordered
map cannot be built and iteration order is a function of the contents alone
(`OrderedMap.ext_find?`).

* `find?_insert`, `find?_erase` — the point lookups after an update.
-/

import Mathlib.Data.List.Nodup
import Mathlib.Order.Defs.Unbundled

namespace Sententia.Library

/-- A finite map from `K` to `V`, iterated in the order `lt`. -/
structure OrderedMap (K V : Type) (lt : K → K → Prop) where
  entries : List (K × V)
  ordered : entries.Pairwise fun first second => lt first.1 second.1

namespace OrderedMap

variable {K V : Type} {lt : K → K → Prop}

@[ext] theorem ext_entries {first second : OrderedMap K V lt}
    (same : first.entries = second.entries) : first = second := by
  cases first
  cases second
  cases same
  rfl

def empty : OrderedMap K V lt := ⟨[], List.Pairwise.nil⟩

instance : Inhabited (OrderedMap K V lt) := ⟨empty⟩

def keys (map : OrderedMap K V lt) : List K := map.entries.map Prod.fst

def size (map : OrderedMap K V lt) : Nat := map.entries.length

def isEmpty (map : OrderedMap K V lt) : Bool := map.entries.isEmpty

@[simp] theorem entries_empty : (empty : OrderedMap K V lt).entries = [] := rfl

/-! ### The operations on entry lists -/

section Entries

variable [DecidableEq K] [DecidableRel lt]

/-- The value stored under a key. -/
def lookupEntry (key : K) : List (K × V) → Option V
  | [] => none
  | (other, value) :: rest => if other = key then some value else lookupEntry key rest

/-- Insert or assign, at the key's position in the order. -/
def insertEntry (lt : K → K → Prop) [DecidableRel lt] (key : K) (value : V) :
    List (K × V) → List (K × V)
  | [] => [(key, value)]
  | (other, old) :: rest =>
    if other = key then (key, value) :: rest
    else if lt key other then (key, value) :: (other, old) :: rest
    else (other, old) :: insertEntry lt key value rest

theorem mem_insertEntry {key : K} {value : V} {entry : K × V} {entries : List (K × V)}
    (member : entry ∈ insertEntry lt key value entries) :
    entry = (key, value) ∨ entry ∈ entries := by
  induction entries with
  | nil => simpa [insertEntry] using member
  | cons head rest ih =>
    obtain ⟨other, old⟩ := head
    simp only [insertEntry] at member
    split_ifs at member <;> grind

theorem insertEntry_ordered [IsStrictTotalOrder K lt] (key : K) (value : V)
    {entries : List (K × V)}
    (ordered : entries.Pairwise fun first second => lt first.1 second.1) :
    (insertEntry lt key value entries).Pairwise fun first second => lt first.1 second.1 := by
  induction entries with
  | nil => simp [insertEntry]
  | cons head rest ih =>
    obtain ⟨other, old⟩ := head
    obtain ⟨before, tail⟩ := List.pairwise_cons.mp ordered
    simp only [insertEntry]
    split_ifs with same less
    · subst same
      exact List.pairwise_cons.mpr ⟨before, tail⟩
    · refine List.pairwise_cons.mpr ⟨fun entry member => ?_, ordered⟩
      rcases List.mem_cons.mp member with rfl | member
      · exact less
      · exact trans_of lt less (before entry member)
    · refine List.pairwise_cons.mpr ⟨fun entry member => ?_, ih tail⟩
      rcases mem_insertEntry member with rfl | member
      · rcases trichotomous_of lt other key with less' | equal | less'
        · exact less'
        · exact absurd equal same
        · exact absurd less' less
      · exact before entry member

end Entries

/-! ### The map operations -/

section Operations

variable [DecidableEq K]

def find? (map : OrderedMap K V lt) (key : K) : Option V := lookupEntry key map.entries

def contains (map : OrderedMap K V lt) (key : K) : Bool := (map.find? key).isSome

def erase (map : OrderedMap K V lt) (key : K) : OrderedMap K V lt where
  entries := map.entries.filter fun entry => entry.1 ≠ key
  ordered := map.ordered.filter _

def insert [DecidableRel lt] [IsStrictTotalOrder K lt] (map : OrderedMap K V lt) (key : K)
    (value : V) : OrderedMap K V lt where
  entries := insertEntry lt key value map.entries
  ordered := insertEntry_ordered key value map.ordered

/-- Rewrite every value in place; the keys and their order stay. -/
def mapValues (map : OrderedMap K V lt) (update : V → V) : OrderedMap K V lt where
  entries := map.entries.map fun entry => (entry.1, update entry.2)
  ordered := by
    rw [List.pairwise_map]
    exact map.ordered

@[simp] theorem find?_empty (key : K) : (empty : OrderedMap K V lt).find? key = none := rfl

theorem lookupEntry_filter_ne (key other : K) (entries : List (K × V)) :
    lookupEntry other (entries.filter fun entry => entry.1 ≠ key) =
      if other = key then none else lookupEntry other entries := by
  induction entries with
  | nil => simp [lookupEntry]
  | cons head rest ih => grind [lookupEntry]

theorem find?_erase (map : OrderedMap K V lt) (key other : K) :
    (map.erase key).find? other = if other = key then none else map.find? other :=
  lookupEntry_filter_ne key other map.entries

theorem lookupEntry_map {W : Type} (update : V → W) (key : K) (entries : List (K × V)) :
    lookupEntry key (entries.map fun entry => (entry.1, update entry.2)) =
      (lookupEntry key entries).map update := by
  induction entries with
  | nil => rfl
  | cons head rest ih => grind [lookupEntry]

theorem find?_mapValues (map : OrderedMap K V lt) (update : V → V) (key : K) :
    (map.mapValues update).find? key = (map.find? key).map update :=
  lookupEntry_map update key map.entries

/-- The values seen through `view`; the keys and their order stay. -/
def project {W : Type} (map : OrderedMap K V lt) (view : V → W) : OrderedMap K W lt where
  entries := map.entries.map fun entry => (entry.1, view entry.2)
  ordered := by
    rw [List.pairwise_map]
    exact map.ordered

theorem find?_project {W : Type} (map : OrderedMap K V lt) (view : V → W) (key : K) :
    (map.project view).find? key = (map.find? key).map view :=
  lookupEntry_map view key map.entries

end Operations

section Lookup

variable [DecidableEq K] [DecidableRel lt] [IsStrictTotalOrder K lt]

omit [IsStrictTotalOrder K lt] in
theorem lookupEntry_insertEntry (key other : K) (value : V) (entries : List (K × V)) :
    lookupEntry other (insertEntry lt key value entries) =
      if other = key then some value else lookupEntry other entries := by
  induction entries with
  | nil => grind [lookupEntry, insertEntry]
  | cons head rest ih =>
    obtain ⟨first, old⟩ := head
    simp only [insertEntry]
    split_ifs with same less <;> grind [lookupEntry]

theorem find?_insert (map : OrderedMap K V lt) (key other : K) (value : V) :
    (map.insert key value).find? other = if other = key then some value else map.find? other :=
  lookupEntry_insertEntry key other value map.entries

@[simp] theorem find?_insert_self (map : OrderedMap K V lt) (key : K) (value : V) :
    (map.insert key value).find? key = some value := by
  rw [find?_insert, if_pos rfl]

omit [DecidableRel lt] in
theorem lookupEntry_eq_some_iff {key : K} {value : V} {entries : List (K × V)}
    (ordered : entries.Pairwise fun first second => lt first.1 second.1) :
    lookupEntry key entries = some value ↔ (key, value) ∈ entries := by
  induction entries with
  | nil => simp [lookupEntry]
  | cons head rest ih =>
    obtain ⟨other, old⟩ := head
    obtain ⟨before, tail⟩ := List.pairwise_cons.mp ordered
    by_cases same : other = key
    · subst same
      have absent : (other, value) ∉ rest := fun member =>
        irrefl_of lt other (before _ member)
      simp [lookupEntry, absent, eq_comm]
    · have different : key ≠ other := fun equal => same equal.symm
      simp [lookupEntry, same, different, ih tail]

omit [DecidableRel lt] in
/-- Walking the map and keeping what is stored under one key is a lookup. -/
theorem flatMap_entries_at {W : Type} (map : OrderedMap K V lt) (view : V → List W) (key : K) :
    (map.entries.flatMap fun entry => if entry.1 = key then view entry.2 else []) =
      ((map.find? key).map view).getD [] := by
  unfold find?
  have ordered := map.ordered
  revert ordered
  generalize map.entries = entries
  intro ordered
  induction entries with
  | nil => rfl
  | cons head rest ih =>
    obtain ⟨other, value⟩ := head
    obtain ⟨before, tail⟩ := List.pairwise_cons.mp ordered
    rw [List.flatMap_cons]
    by_cases same : other = key
    · subst same
      have later : (rest.flatMap fun entry => if entry.1 = other then view entry.2 else []) = [] := by
        refine List.flatMap_eq_nil_iff.mpr fun entry member => if_neg fun same => ?_
        have less := before entry member
        rw [same] at less
        exact irrefl_of lt other less
      simp [lookupEntry, later]
    · simp [lookupEntry, same, ih tail]

omit [DecidableRel lt] in
/-- A lookup finds exactly the stored entries. -/
theorem find?_eq_some_iff (map : OrderedMap K V lt) {key : K} {value : V} :
    map.find? key = some value ↔ (key, value) ∈ map.entries :=
  lookupEntry_eq_some_iff map.ordered

omit [DecidableRel lt] in
theorem mem_keys_iff (map : OrderedMap K V lt) {key : K} :
    key ∈ map.keys ↔ ∃ value, map.find? key = some value := by
  simp [keys, find?_eq_some_iff]

omit [DecidableEq K] [DecidableRel lt] in
theorem keys_nodup (map : OrderedMap K V lt) : map.keys.Nodup := by
  unfold keys
  refine List.Pairwise.map Prod.fst (fun first second less same => ?_) map.ordered
  exact irrefl_of lt first.1 (by rwa [← same] at less)

omit [DecidableRel lt] in
/-- **A map is its lookups.** -/
theorem ext_find? {first second : OrderedMap K V lt}
    (same : ∀ key, first.find? key = second.find? key) : first = second := by
  apply ext_entries
  refine List.Perm.eq_of_pairwise (fun a b _ _ less greater => ?_) first.ordered second.ordered ?_
  · exact absurd (trans_of lt less greater) (irrefl_of lt a.1)
  · refine (List.perm_ext_iff_of_nodup ?_ ?_).mpr fun entry => ?_
    · exact List.Nodup.of_map _ first.keys_nodup
    · exact List.Nodup.of_map _ second.keys_nodup
    · obtain ⟨key, value⟩ := entry
      rw [← find?_eq_some_iff, ← find?_eq_some_iff, same]

theorem insert_insert_self (map : OrderedMap K V lt) (key : K) (first second : V) :
    (map.insert key first).insert key second = map.insert key second := by
  refine ext_find? fun other => ?_
  simp only [find?_insert]
  split <;> rfl

theorem insert_eq_self {map : OrderedMap K V lt} {key : K} {value : V}
    (found : map.find? key = some value) : map.insert key value = map := by
  refine ext_find? fun other => ?_
  rw [find?_insert]
  split_ifs with same
  · rw [same, found]
  · rfl

theorem erase_insert_self (map : OrderedMap K V lt) (key : K) (value : V) :
    (map.insert key value).erase key = map.erase key := by
  refine ext_find? fun other => ?_
  simp only [find?_erase, find?_insert]
  split <;> rfl

omit [DecidableRel lt] in
theorem find?_front (map : OrderedMap K V lt) {key : K} {value : V} {rest : List (K × V)}
    (front : map.entries = (key, value) :: rest) : map.find? key = some value := by
  rw [find?_eq_some_iff, front]
  exact List.mem_cons_self

end Lookup

end OrderedMap

end Sententia.Library
