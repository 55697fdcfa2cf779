/-!
# `Parley/Table.lean` — finite tables

A table assigns a value to each of finitely many keys. `get?` is the view of a table that its laws
are stated in: an insertion changes the answer for one key, and so does an erasure.

The order in which a table happens to keep its entries means nothing. Where all of them are gone
through and the order shows, it is that of a `Table.Visit`, which may be any.
-/

set_option autoImplicit false

namespace Parley

structure Table (κ ν : Type) where
  entries : List (κ × ν) := []
  deriving DecidableEq

namespace Table

/-- A way to go through the entries of tables, each entry once, in an order that is up to chance. -/
structure Visit (κ ν : Type) where
  arrange : List (κ × ν) → List (κ × ν)
  perm : ∀ entries, (arrange entries).Perm entries

/-- Goes through entries as they are kept. -/
def Visit.asKept {κ ν : Type} : Visit κ ν := { arrange := id, perm := .refl }

variable {κ ν : Type} [DecidableEq κ]

def get? (t : Table κ ν) (k : κ) : Option ν := (t.entries.find? (·.1 == k)).map (·.2)

def contains (t : Table κ ν) (k : κ) : Bool := (t.get? k).isSome

/-- The table without a key. -/
def erase (t : Table κ ν) (k : κ) : Table κ ν := ⟨t.entries.filter (·.1 != k)⟩

/-- The table with a value for a key, in place of the one it had. -/
def insert (t : Table κ ν) (k : κ) (v : ν) : Table κ ν := ⟨(k, v) :: (t.erase k).entries⟩

def keys (t : Table κ ν) : List κ := t.entries.map (·.1)

def size (t : Table κ ν) : Nat := t.entries.length

@[simp] theorem get?_empty (k : κ) : (({} : Table κ ν)).get? k = none := rfl

theorem get?_cons (e : κ × ν) (rest : List (κ × ν)) (k : κ) :
    (Table.mk (e :: rest)).get? k = if e.1 = k then some e.2 else (Table.mk rest).get? k := by
  by_cases h : e.1 = k <;> simp [get?, h]

/-- A table that keeps the entries of some keys only. -/
theorem get?_filter (t : Table κ ν) (p : κ → Bool) (k : κ) :
    (Table.mk (t.entries.filter fun e => p e.1)).get? k = if p k then t.get? k else none := by
  obtain ⟨entries⟩ := t
  induction entries with
  | nil => simp [get?]
  | cons e rest ih =>
    rw [get?_cons]
    by_cases he : e.1 = k
    · subst he
      cases hp : p e.1 with
      | true => simp [hp, get?_cons]
      | false => simpa [hp] using ih
    · cases hp : p e.1 with
      | true => simpa [hp, get?_cons, he] using ih
      | false => simpa [hp, he] using ih

@[simp] theorem get?_erase_self (t : Table κ ν) (k : κ) : (t.erase k).get? k = none := by
  simpa [erase] using get?_filter t (· != k) k

theorem get?_erase_of_ne (t : Table κ ν) {k l : κ} (h : l ≠ k) :
    (t.erase k).get? l = t.get? l := by
  simpa [erase, h] using get?_filter t (· != k) l

@[simp] theorem get?_insert_self (t : Table κ ν) (k : κ) (v : ν) :
    (t.insert k v).get? k = some v := by
  simp [get?, insert]

theorem get?_insert_of_ne (t : Table κ ν) {k l : κ} (v : ν) (h : l ≠ k) :
    (t.insert k v).get? l = t.get? l := by
  rw [← get?_erase_of_ne t h]
  simp [get?, insert, Ne.symm h]

theorem get?_eq_none_iff {t : Table κ ν} {k : κ} : t.get? k = none ↔ k ∉ t.keys := by
  unfold get? keys
  rw [Option.map_eq_none_iff, List.find?_eq_none, List.mem_map, not_exists]
  constructor
  · intro h e he
    exact h e he.1 (by simpa using he.2)
  · intro h e he hkey
    exact h e ⟨he, by simpa using hkey⟩

theorem contains_iff {t : Table κ ν} {k : κ} : t.contains k = true ↔ k ∈ t.keys := by
  rw [contains, Option.isSome_iff_ne_none, ne_eq, get?_eq_none_iff, Decidable.not_not]

/-- Erasing a key that is not there changes nothing. -/
theorem erase_of_get?_eq_none {t : Table κ ν} {k : κ} (h : t.get? k = none) : t.erase k = t := by
  have hnot := get?_eq_none_iff.mp h
  have hentries : t.entries.filter (·.1 != k) = t.entries := by
    apply List.filter_eq_self.mpr
    intro e he
    have hne : e.1 ≠ k := fun heq => hnot (heq ▸ List.mem_map_of_mem he)
    simpa using hne
  rw [erase, hentries]

theorem keys_erase (t : Table κ ν) (k : κ) : (t.erase k).keys = t.keys.filter (· != k) := by
  rw [keys, keys, erase, List.filter_map]
  rfl

theorem keys_insert (t : Table κ ν) (k : κ) (v : ν) :
    (t.insert k v).keys = k :: t.keys.filter (· != k) := congrArg (k :: ·) (keys_erase t k)

@[simp] theorem mem_keys_insert {t : Table κ ν} {k l : κ} {v : ν} :
    l ∈ (t.insert k v).keys ↔ l = k ∨ l ∈ t.keys := by
  by_cases h : l = k
  · simp [keys, insert, h]
  · simp [keys, insert, erase, h]

def Unique (t : Table κ ν) : Prop := t.entries.Pairwise (·.1 ≠ ·.1)

omit [DecidableEq κ] in
theorem unique_empty : ({} : Table κ ν).Unique := .nil

omit [DecidableEq κ] in
theorem Unique.nodup_keys {t : Table κ ν} (h : t.Unique) : t.keys.Nodup := List.pairwise_map.mpr h

theorem Unique.erase {t : Table κ ν} (h : t.Unique) (k : κ) : (t.erase k).Unique :=
  h.filter _

theorem Unique.insert {t : Table κ ν} (h : t.Unique) (k : κ) (v : ν) : (t.insert k v).Unique := by
  refine List.pairwise_cons.mpr ⟨fun e he => ?_, h.erase k⟩
  have hne : e.1 ≠ k := by simpa using (List.mem_filter.mp he).2
  exact hne.symm

/-- The entries of a table say what its keys have for a value. -/
theorem mem_entries_iff {t : Table κ ν} (h : t.Unique) {k : κ} {v : ν} :
    (k, v) ∈ t.entries ↔ t.get? k = some v := by
  obtain ⟨entries⟩ := t
  unfold Unique at h
  unfold get?
  induction entries with
  | nil => simp
  | cons e rest ih =>
    obtain ⟨hhead, hrest⟩ := List.pairwise_cons.mp h
    by_cases he : e.1 = k
    · have hnot : (k, v) ∉ rest := fun hmem => hhead _ hmem he
      have heq : (k, v) = e ↔ e.2 = v := by
        rw [Prod.ext_iff]
        exact ⟨fun h => h.2.symm, fun h => ⟨he.symm, h.symm⟩⟩
      simp [he, hnot, heq]
    · have hne : (k, v) ≠ e := fun heq => he (heq ▸ rfl)
      simpa [he, hne] using ih hrest

/-- An entry and what an erasure of its key leaves are all there is. -/
theorem Unique.perm_erase {t : Table κ ν} (h : t.Unique) {k : κ} {v : ν}
    (hmem : (k, v) ∈ t.entries) : t.entries.Perm ((k, v) :: (t.erase k).entries) := by
  obtain ⟨entries⟩ := t
  unfold Unique at h
  show entries.Perm ((k, v) :: entries.filter (·.1 != k))
  induction entries with
  | nil => exact absurd hmem (by simp)
  | cons e rest ih =>
    obtain ⟨hhead, hrest⟩ := List.pairwise_cons.mp h
    rcases List.mem_cons.mp hmem with rfl | hmem
    · have hkept : rest.filter (·.1 != k) = rest := by
        apply List.filter_eq_self.mpr
        intro e he
        simpa using (hhead e he).symm
      simp [hkept]
    · have hne : e.1 ≠ k := hhead _ hmem
      have hkept : (e :: rest).filter (·.1 != k) = e :: rest.filter (·.1 != k) := by simp [hne]
      rw [hkept]
      exact ((ih hrest hmem).cons e).trans (.swap (k, v) e _)

end Table

end Parley
