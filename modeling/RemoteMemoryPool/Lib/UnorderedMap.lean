import Mathlib.Tactic.Common

/-!
# Unordered maps

The operations of `std::unordered_map`: `find`, the inserting lookup `operator[]`,
assignment through `operator[]`, `insert`, which keeps an entry that is already there,
and `erase`.
-/

/-- A finite map seen through its lookups. -/
structure UnorderedMap (K V : Type) where
  find : K → Option V

namespace UnorderedMap

variable {K V : Type}

def empty : UnorderedMap K V := ⟨fun _ => none⟩

def Contains (m : UnorderedMap K V) (k : K) : Prop := m.find k ≠ none

instance (m : UnorderedMap K V) (k : K) : Decidable (m.Contains k) :=
  match h : m.find k with
  | none => isFalse (fun hc => hc h)
  | some _ => isTrue (by simp [Contains, h])

@[ext] lemma ext' {m m' : UnorderedMap K V} (h : ∀ k, m.find k = m'.find k) : m = m' := by
  cases m; cases m'
  simp only [mk.injEq]
  exact funext h

@[simp] lemma find_empty (k : K) : (empty : UnorderedMap K V).find k = none := rfl

/-- The value read by `m[k]`. -/
def index (m : UnorderedMap K V) (dflt : V) (k : K) : V := (m.find k).getD dflt

lemma index_of_find_some (m : UnorderedMap K V) (d : V) {k : K} {w : V} (h : m.find k = some w) :
    m.index d k = w := by
  simp [index, h]

variable [DecidableEq K]

/-- `m[k] = v`. -/
def set (m : UnorderedMap K V) (k : K) (v : V) : UnorderedMap K V :=
  ⟨fun x => if x = k then some v else m.find x⟩

/-- `m.insert({k, v})`: an entry that is already there stays. -/
def insert (m : UnorderedMap K V) (k : K) (v : V) : UnorderedMap K V :=
  match m.find k with
  | some _ => m
  | none => m.set k v

/-- The map left behind by reading `m[k]`: a missing key gets the default value. -/
def indexed (m : UnorderedMap K V) (dflt : V) (k : K) : UnorderedMap K V := m.insert k dflt

/-- `m.erase(k)`. -/
def erase (m : UnorderedMap K V) (k : K) : UnorderedMap K V :=
  ⟨fun x => if x = k then none else m.find x⟩

variable (m : UnorderedMap K V) (k x : K) (v d : V)

@[simp] lemma find_set : (m.set k v).find x = if x = k then some v else m.find x := rfl

@[simp] lemma find_erase : (m.erase k).find x = if x = k then none else m.find x := rfl

lemma erase_set_of_find_none (h : m.find k = none) : (m.set k v).erase k = m := by
  ext1 x
  simp only [find_erase, find_set]
  split
  · next hx => rw [hx, h]
  · rfl

lemma insert_of_find_none (h : m.find k = none) : m.insert k v = m.set k v := by
  simp [insert, h]

lemma insert_of_find_some {w : V} (h : m.find k = some w) : m.insert k v = m := by
  simp [insert, h]

lemma find_insert : (m.insert k v).find x = if x = k then some ((m.find k).getD v) else m.find x := by
  cases hk : m.find k with
  | none => simp [insert_of_find_none m k v hk]
  | some w =>
    rw [insert_of_find_some m k v hk]
    by_cases hx : x = k
    · simp [hx, hk]
    · simp [hx]

lemma contains_insert : (m.insert k v).Contains x ↔ x = k ∨ m.Contains x := by
  rw [Contains, find_insert]
  by_cases hx : x = k
  · simp [hx]
  · simp [hx, Contains]

lemma contains_erase : (m.erase k).Contains x ↔ x ≠ k ∧ m.Contains x := by
  rw [Contains, find_erase]
  by_cases hx : x = k
  · simp [hx]
  · simp [hx, Contains]

lemma find_erase_eq_some : (m.erase k).find x = some v ↔ x ≠ k ∧ m.find x = some v := by
  rw [find_erase]
  by_cases hx : x = k
  · simp [hx]
  · simp [hx]

/-- Two maps that are inverse to each other. -/
def Inverse (m : UnorderedMap K V) (n : UnorderedMap V K) : Prop :=
  ∀ k v, m.find k = some v ↔ n.find v = some k

section Inverse

variable {m k v} [DecidableEq V] {n : UnorderedMap V K}

lemma Inverse.insert (h : Inverse m n) (hk : m.find k = none) (hv : n.find v = none) :
    Inverse (m.insert k v) (n.insert v k) := by
  intro x y
  have hxy := h x y
  rw [insert_of_find_none m k v hk, insert_of_find_none n v k hv, find_set, find_set]
  by_cases hx : x = k
  · subst hx
    by_cases hy : y = v
    · simp [hy]
    · simp [hy, Ne.symm hy, ← hxy, hk]
  · by_cases hy : y = v
    · subst hy
      simp [hx, Ne.symm hx, hxy, hv]
    · simp [hx, hy, hxy]

lemma Inverse.erase (h : Inverse m n) (hkv : m.find k = some v) :
    Inverse (m.erase k) (n.erase v) := by
  intro x y
  have hvk := (h k v).mp hkv
  rw [find_erase_eq_some, find_erase_eq_some, h x y]
  constructor
  · rintro ⟨hx, hyx⟩
    refine ⟨?_, hyx⟩
    rintro rfl
    exact hx (Option.some.inj (hyx.symm.trans hvk))
  · rintro ⟨hy, hyx⟩
    refine ⟨?_, hyx⟩
    rintro rfl
    exact hy (Option.some.inj (((h x y).mpr hyx).symm.trans hkv))

end Inverse

lemma indexed_of_find_some {w : V} (h : m.find k = some w) : m.indexed d k = m :=
  insert_of_find_some m k d h

end UnorderedMap
