import Mathlib.Logic.Function.Basic
import Mathlib.Tactic.Common

/-!
# Demand paging with one resident page per region

A pager keeps every page of every region in a backing store and at most one page of each
region in memory. A fault first evicts the resident page of the region: the page is written
back if it was opened by a store, and dropped otherwise. A load then fetches the page
through a buffer all regions share; a store opens the page with whatever the buffer holds.

`Coherent` compares a pager with flat memory. `coherent_access_iff` says exactly which
accesses keep it coherent, and `Settled` is the weaker relation that accesses which obey
`Allowed` preserve.
-/

namespace Paging

variable {R I B V : Type}

/-- The resident page of a region, and whether a store opened it. -/
structure Slot (I B V : Type) where
  page : I
  byWrite : Bool
  contents : B → V

structure Pager (R I B V : Type) where
  store : R → I → B → V
  slot : R → Option (Slot I B V)
  buf : B → V

/-- One byte access; a store carries its value. -/
structure Access (R I B V : Type) where
  region : R
  page : I
  byte : B
  value : Option V

namespace Access

def isWrite (a : Access R I B V) : Bool := a.value.isSome

variable [DecidableEq B]

def applyTo (a : Access R I B V) (d : B → V) : B → V :=
  match a.value with
  | none => d
  | some v => Function.update d a.byte v

variable [DecidableEq R] [DecidableEq I]

def onMemory (a : Access R I B V) (m : R → I → B → V) : R → I → B → V := fun r i =>
  if r = a.region ∧ i = a.page then a.applyTo (m r i) else m r i

end Access

namespace Pager

/-- The resident page of `r` is page `i`. -/
def Hit (s : Pager R I B V) (r : R) (i : I) : Prop := ∃ q, s.slot r = some q ∧ q.page = i

section Views

variable [DecidableEq I]

instance (s : Pager R I B V) (r : R) (i : I) : Decidable (s.Hit r i) :=
  match h : s.slot r with
  | none => isFalse (by simp [Hit, h])
  | some q => decidable_of_iff (q.page = i) (by simp [Hit, h])

/-- The current contents of a page: the resident copy if there is one. -/
def view (s : Pager R I B V) (r : R) (i : I) : B → V :=
  match s.slot r with
  | none => s.store r i
  | some q => if q.page = i then q.contents else s.store r i

variable (s : Pager R I B V) (r : R) (i : I)

lemma view_of_slot {q : Slot I B V} (h : s.slot r = some q) : s.view r q.page = q.contents := by
  simp [view, h]

lemma view_of_not_hit (h : ¬s.Hit r i) : s.view r i = s.store r i := by
  unfold view
  cases hq : s.slot r with
  | none => rfl
  | some q =>
    have hne : q.page ≠ i := fun he => h ⟨q, hq, he⟩
    simp [hne]

end Views

section Faults

variable [DecidableEq R] [DecidableEq I]

/-- The resident page of `r` is removed, after being written back if a store opened it. -/
def evict (s : Pager R I B V) (r : R) : Pager R I B V :=
  match s.slot r with
  | none => s
  | some q =>
    { s with
      store := fun r' i => if r' = r ∧ i = q.page ∧ q.byWrite = true then q.contents else s.store r' i
      slot := Function.update s.slot r none }

/-- A fault on page `i` of `r`. -/
def fault (s : Pager R I B V) (r : R) (i : I) (byWrite : Bool) : Pager R I B V :=
  let s := s.evict r
  let buf := if byWrite then s.buf else s.store r i
  { s with buf := buf, slot := Function.update s.slot r (some ⟨i, byWrite, buf⟩) }

/-- The pager once page `i` of `r` is resident. -/
def fetch (s : Pager R I B V) (r : R) (i : I) (byWrite : Bool) : Pager R I B V :=
  if s.Hit r i then s else s.fault r i byWrite

variable (s : Pager R I B V) (r : R) (i : I)

@[simp] lemma slot_evict : (s.evict r).slot = Function.update s.slot r none := by
  unfold evict
  cases hq : s.slot r with
  | none => simp [← hq]
  | some q => rfl

@[simp] lemma buf_evict : (s.evict r).buf = s.buf := by
  unfold evict
  cases s.slot r <;> rfl

lemma store_evict_of_not_hit (h : ¬s.Hit r i) : (s.evict r).store r i = s.store r i := by
  unfold evict
  cases hq : s.slot r with
  | none => rfl
  | some q =>
    have hne : i ≠ q.page := fun he => h ⟨q, hq, he.symm⟩
    simp [hne]

lemma store_evict_of_ne {r' : R} (h : r' ≠ r) : (s.evict r).store r' i = s.store r' i := by
  unfold evict
  cases s.slot r with
  | none => rfl
  | some q => simp [h]

lemma store_evict_slot {q : Slot I B V} (h : s.slot r = some q) :
    (s.evict r).store r q.page = if q.byWrite then q.contents else s.store r q.page := by
  simp [evict, h]

@[simp] lemma store_fault (w : Bool) : (s.fault r i w).store = (s.evict r).store := rfl

lemma view_evict_of_ne {r' : R} (h : r' ≠ r) : (s.evict r).view r' i = s.view r' i := by
  simp [view, h, store_evict_of_ne s r i h]

lemma contents_fetch_load {q : Slot I B V} (h : (s.fetch r i false).slot r = some q) :
    q.contents = s.view r i := by
  unfold fetch at h
  by_cases hh : s.Hit r i
  · obtain ⟨t, ht, rfl⟩ := id hh
    rw [if_pos hh, ht] at h
    obtain rfl := Option.some.inj h
    rw [view_of_slot s r ht]
  · rw [if_neg hh] at h
    obtain rfl : _ = q := by simpa [fault] using h
    rw [view_of_not_hit s r i hh]
    exact store_evict_of_not_hit s r i hh

end Faults

variable [DecidableEq R] [DecidableEq I] [DecidableEq B]

def access (s : Pager R I B V) (a : Access R I B V) : Pager R I B V :=
  let s := s.fetch a.region a.page a.isWrite
  { s with
    slot := Function.update s.slot a.region
      ((s.slot a.region).map (fun q => { q with contents := a.applyTo q.contents })) }

section Access

variable (s : Pager R I B V) (a : Access R I B V)

lemma access_of_hit {q : Slot I B V} (h : s.slot a.region = some q) (hp : q.page = a.page) :
    s.access a = { s with
      slot := Function.update s.slot a.region
        (some { q with contents := a.applyTo q.contents }) } := by
  have hh : s.Hit a.region a.page := ⟨q, h, hp⟩
  simp [access, fetch, hh, h]

lemma access_of_not_hit (h : ¬s.Hit a.region a.page) :
    s.access a =
      { store := (s.evict a.region).store
        slot := Function.update s.slot a.region
          (some ⟨a.page, a.isWrite, a.applyTo (if a.isWrite then s.buf else s.store a.region a.page)⟩)
        buf := if a.isWrite then s.buf else s.store a.region a.page } := by
  simp [access, fetch, h, fault, store_evict_of_not_hit s _ _ h]

lemma access_of_load (h : a.isWrite = false) : s.access a = s.fetch a.region a.page false := by
  have hv : a.value = none := by simpa [Access.isWrite] using h
  have hid : (fun q : Slot I B V => { q with contents := a.applyTo q.contents }) = id := by
    funext q
    simp [Access.applyTo, hv]
  simp [access, h, hid]

end Access

/-! ### Coherence with flat memory -/

variable (D : R → I → Prop)

/-- The pages of `D` have the contents flat memory gives them. -/
def Coherent (s : Pager R I B V) (m : R → I → B → V) : Prop := ∀ r i, D r i → s.view r i = m r i

def SlotsIn (s : Pager R I B V) : Prop := ∀ r q, s.slot r = some q → D r q.page

/-- The access does not fault; or the page it evicts is written back or has not been changed,
and the page it opens has the right contents apart from the byte it stores. -/
def Clean (s : Pager R I B V) (a : Access R I B V) : Prop :=
  s.Hit a.region a.page ∨
    (∀ q, s.slot a.region = some q → q.byWrite = false → q.contents = s.store a.region q.page) ∧
      (a.isWrite = true → ∀ b, b ≠ a.byte → s.buf b = s.store a.region a.page b)

variable {D} {s : Pager R I B V} {a : Access R I B V} {m : R → I → B → V}

omit [DecidableEq R] [DecidableEq B] in
lemma view_eq_of_slot_eq {s' : Pager R I B V} {r : R} {i : I} (hslot : s'.slot r = s.slot r)
    (hstore : s'.store r i = s.store r i) : s'.view r i = s.view r i := by
  simp only [view, hslot, hstore]

lemma view_access_of_ne {r : R} (hr : r ≠ a.region) (i : I) : (s.access a).view r i = s.view r i := by
  by_cases hh : s.Hit a.region a.page
  · obtain ⟨q, hq, hp⟩ := hh
    rw [access_of_hit s a hq hp]
    exact view_eq_of_slot_eq (Function.update_of_ne hr _ _) rfl
  · rw [access_of_not_hit s a hh]
    exact view_eq_of_slot_eq (Function.update_of_ne hr _ _) (store_evict_of_ne s _ _ hr)

lemma view_access_page :
    (s.access a).view a.region a.page =
      a.applyTo (if a.isWrite = true ∧ ¬s.Hit a.region a.page then s.buf
        else s.view a.region a.page) := by
  by_cases hh : s.Hit a.region a.page
  · obtain ⟨q, hq, hp⟩ := hh
    have hh : s.Hit a.region a.page := ⟨q, hq, hp⟩
    rw [access_of_hit s a hq hp]
    simp [view, hq, hp, hh]
  · rw [access_of_not_hit s a hh, view_of_not_hit s _ _ hh]
    simp [view, hh]

/-- A page of the accessed region other than the accessed one changes only if it is evicted
without being written back. -/
lemma view_access_other {i : I} (hi : i ≠ a.page) :
    (s.access a).view a.region i =
      if s.Hit a.region a.page then s.view a.region i else (s.evict a.region).store a.region i := by
  by_cases hh : s.Hit a.region a.page
  · obtain ⟨q, hq, hp⟩ := hh
    have hh : s.Hit a.region a.page := ⟨q, hq, hp⟩
    have hne : a.page ≠ i := fun he => hi he.symm
    rw [access_of_hit s a hq hp, if_pos hh]
    simp [view, hq, hp, hne]
  · have hne : a.page ≠ i := fun he => hi he.symm
    rw [access_of_not_hit s a hh, if_neg hh]
    simp [view, hne]

omit [DecidableEq R] [DecidableEq I] in
lemma applyTo_eq_iff {d d' : B → V} :
    a.applyTo d = a.applyTo d' ↔
      if a.isWrite = true then ∀ b, b ≠ a.byte → d b = d' b else d = d' := by
  unfold Access.applyTo Access.isWrite
  cases a.value with
  | none => simp
  | some v =>
    simp only [Option.isSome_some, if_true]
    constructor
    · intro h b hb
      have hb' := congrFun h b
      rwa [Function.update_of_ne hb, Function.update_of_ne hb] at hb'
    · intro h
      funext b
      by_cases hb : b = a.byte
      · simp [hb]
      · rw [Function.update_of_ne hb, Function.update_of_ne hb, h b hb]

lemma Coherent.access_of_hit (hc : Coherent D s m) (hD : D a.region a.page)
    (hh : s.Hit a.region a.page) : Coherent D (s.access a) (a.onMemory m) := by
  intro r i hri
  unfold Access.onMemory
  by_cases hr : r = a.region
  · subst hr
    by_cases hi : i = a.page
    · subst hi
      simp [view_access_page, hh, hc _ _ hD]
    · simp [view_access_other hi, hh, hi, hc _ _ hri]
  · simp [view_access_of_ne hr, hr, hc _ _ hri]

/-- A fault keeps a coherent pager coherent exactly when it evicts no unsaved byte and opens
the page with the right contents. -/
lemma Coherent.access_of_fault (hc : Coherent D s m) (hs : SlotsIn D s) (hD : D a.region a.page)
    (hh : ¬s.Hit a.region a.page) :
    Coherent D (s.access a) (a.onMemory m) ↔
      (∀ q, s.slot a.region = some q → q.byWrite = false → q.contents = s.store a.region q.page) ∧
        (a.isWrite = true → ∀ b, b ≠ a.byte → s.buf b = s.store a.region a.page b) := by
  have hstore : m a.region a.page = s.store a.region a.page := by
    rw [← hc _ _ hD, view_of_not_hit s _ _ hh]
  constructor
  · intro h
    constructor
    · intro q hq hw
      have hne : q.page ≠ a.page := fun he => hh ⟨q, hq, he⟩
      have hv := h _ _ (hs _ _ hq)
      rw [view_access_other hne, if_neg hh, store_evict_slot s _ hq, hw] at hv
      simp only [Bool.false_eq_true, if_false, Access.onMemory, hne, and_false] at hv
      rw [hv, ← hc _ _ (hs _ _ hq), view_of_slot s _ hq]
    · intro hw
      have hv := h _ _ hD
      rw [view_access_page] at hv
      simp only [hw, hh, not_false_eq_true, and_self, if_true, Access.onMemory, hstore] at hv
      simpa [hw] using applyTo_eq_iff.mp hv
  · rintro ⟨hevict, hopen⟩ r i hri
    unfold Access.onMemory
    by_cases hr : r = a.region
    · subst hr
      by_cases hi : i = a.page
      · subst hi
        simp only [view_access_page, view_of_not_hit s _ _ hh, and_self, if_true, hstore]
        rw [applyTo_eq_iff]
        by_cases hw : a.isWrite = true
        · simpa [hw, hh] using hopen hw
        · simp [hw]
      · rw [view_access_other hi, if_neg hh, if_neg (by simp [hi]), ← hc _ _ hri]
        by_cases hq : s.Hit a.region i
        · obtain ⟨q, hq, rfl⟩ := hq
          rw [store_evict_slot s _ hq, view_of_slot s _ hq]
          by_cases hw : q.byWrite = true
          · simp [hw]
          · simp [hw, hevict q hq (by simpa using hw)]
        · rw [store_evict_of_not_hit s _ _ hq, view_of_not_hit s _ _ hq]
    · simp [view_access_of_ne hr, hr, hc _ _ hri]

/-- The accesses that keep a coherent pager coherent. -/
theorem coherent_access_iff (hc : Coherent D s m) (hs : SlotsIn D s) (hD : D a.region a.page) :
    Coherent D (s.access a) (a.onMemory m) ↔ Clean s a := by
  by_cases hh : s.Hit a.region a.page
  · exact ⟨fun _ => Or.inl hh, fun _ => hc.access_of_hit hD hh⟩
  · rw [hc.access_of_fault hs hD hh]
    exact ⟨Or.inr, fun h => h.resolve_left hh⟩

lemma SlotsIn.access (hs : SlotsIn D s) (hD : D a.region a.page) : SlotsIn D (s.access a) := by
  intro r q hq
  by_cases hh : s.Hit a.region a.page
  · obtain ⟨t, ht, hp⟩ := hh
    rw [access_of_hit s a ht hp] at hq
    by_cases hr : r = a.region
    · subst hr
      obtain rfl : _ = q := by simpa using hq
      exact hs _ t ht
    · exact hs r q (by simpa [hr] using hq)
  · rw [access_of_not_hit s a hh] at hq
    by_cases hr : r = a.region
    · subst hr
      obtain rfl : _ = q := by simpa using hq
      exact hD
    · exact hs r q (by simpa [hr] using hq)

end Pager

/-! ### Residencies that only load, or that store every byte -/

/-- The current residency of a region: its page, whether a store opened it, and the bytes
stored in it so far. -/
structure Residency (I B : Type) where
  page : I
  byWrite : Bool
  stored : B → Bool

namespace Residency

variable [DecidableEq I] [DecidableEq B]

/-- A residency opened by a store has stored every byte. -/
def Complete (t : Residency I B) : Prop := t.byWrite = true → ∀ b, t.stored b = true

/-- Accesses that may come next in the region. A residency opened by a load has no store, one
opened by a store loads only bytes it has stored, and one that ends is complete. -/
def Allows (t : Residency I B) (a : Access R I B V) : Prop :=
  if t.page = a.page then
    if a.isWrite = true then t.byWrite = true else t.byWrite = true → t.stored a.byte = true
  else t.Complete

/-- The residency an access that faults opens. -/
def opened (a : Access R I B V) : Residency I B :=
  ⟨a.page, a.isWrite, fun b => a.isWrite && decide (b = a.byte)⟩

def after (t : Residency I B) (a : Access R I B V) : Residency I B :=
  if t.page = a.page then
    { t with stored := fun b => t.stored b || (a.isWrite && decide (b = a.byte)) }
  else opened a

omit [DecidableEq I] [DecidableEq B] in
lemma residency_of_slot {o : Option (Slot I B V)} {o' : Option (Residency I B)}
    (h : o.map (fun q => (q.page, q.byWrite)) = o'.map (fun t => (t.page, t.byWrite)))
    {q : Slot I B V} (hq : o = some q) :
    ∃ t, o' = some t ∧ t.page = q.page ∧ t.byWrite = q.byWrite := by
  rw [hq] at h
  cases ht : o' with
  | none => simp [ht] at h
  | some t =>
    rw [ht] at h
    simp only [Option.map_some, Option.some.injEq, Prod.mk.injEq] at h
    exact ⟨t, rfl, h.1.symm, h.2.symm⟩

variable [DecidableEq R]

/-- The residencies of all regions after an access. -/
def track (ρ : R → Option (Residency I B)) (a : Access R I B V) : R → Option (Residency I B) :=
  Function.update ρ a.region
    (some (match ρ a.region with
      | none => opened a
      | some t => t.after a))

lemma track_of_none {ρ : R → Option (Residency I B)} {a : Access R I B V}
    (h : ρ a.region = none) : track ρ a a.region = some (opened a) := by
  simp [track, h]

lemma track_of_some {ρ : R → Option (Residency I B)} {a : Access R I B V} {t : Residency I B}
    (h : ρ a.region = some t) : track ρ a a.region = some (t.after a) := by
  simp [track, h]

lemma track_of_ne (ρ : R → Option (Residency I B)) {a : Access R I B V} {r : R}
    (h : r ≠ a.region) : track ρ a r = ρ r :=
  Function.update_of_ne h _ _

end Residency

namespace Pager

open Residency

/-- A pager whose residencies so far obeyed the discipline: pages that are not resident are
stored as flat memory has them, resident pages opened by a load are also stored so, and
those opened by a store have the right value in the bytes stored so far. -/
structure Settled [DecidableEq I] (D : R → I → Prop) (s : Pager R I B V)
    (ρ : R → Option (Residency I B)) (m : R → I → B → V) : Prop where
  slots : ∀ r, (s.slot r).map (fun q => (q.page, q.byWrite)) =
    (ρ r).map (fun t => (t.page, t.byWrite))
  absent : ∀ r i, D r i → ¬s.Hit r i → s.store r i = m r i
  loaded : ∀ r q, s.slot r = some q → q.byWrite = false →
    q.contents = m r q.page ∧ s.store r q.page = m r q.page
  stored : ∀ r q t, s.slot r = some q → ρ r = some t → q.byWrite = true →
    ∀ b, t.stored b = true → q.contents b = m r q.page b

variable [DecidableEq R] [DecidableEq I] [DecidableEq B]
variable {D : R → I → Prop} {s : Pager R I B V} {ρ : R → Option (Residency I B)}
variable {a : Access R I B V} {m : R → I → B → V} {r : R}

omit [DecidableEq R] [DecidableEq B] in
/-- Only the contents of the pages of `D` matter. -/
lemma Settled.congr (h : Settled D s ρ m) (hs : SlotsIn D s) {m' : R → I → B → V}
    (hm : ∀ r i, D r i → m r i = m' r i) : Settled D s ρ m' := by
  refine ⟨h.slots, ?_, ?_, ?_⟩
  · intro r i hD hh
    rw [← hm r i hD]
    exact h.absent r i hD hh
  · intro r q hq hw
    rw [← hm r q.page (hs r q hq)]
    exact h.loaded r q hq hw
  · intro r q t hq ht hw b hb
    rw [← hm r q.page (hs r q hq)]
    exact h.stored r q t hq ht hw b hb

omit [DecidableEq R] [DecidableEq B] in
lemma Settled.residency (h : Settled D s ρ m) {q : Slot I B V} (hq : s.slot r = some q) :
    ∃ t, ρ r = some t ∧ t.page = q.page ∧ t.byWrite = q.byWrite :=
  residency_of_slot (h.slots r) hq

omit [DecidableEq B] in
lemma Settled.store_evict (h : Settled D s ρ m) (hc : ∀ t, ρ r = some t → t.Complete) {i : I}
    (hD : D r i) : (s.evict r).store r i = m r i := by
  by_cases hh : s.Hit r i
  · obtain ⟨q, hq, rfl⟩ := hh
    obtain ⟨t, ht, -, hw⟩ := h.residency hq
    rw [store_evict_slot s r hq]
    cases hqw : q.byWrite with
    | false => exact (h.loaded r q hq hqw).2
    | true =>
      funext b
      exact h.stored r q t hq ht hqw b (hc t ht (hw.trans hqw) b)
  · rw [store_evict_of_not_hit s r i hh]
    exact h.absent r i hD hh

omit [DecidableEq B] in
lemma not_hit_evict (s : Pager R I B V) (r : R) (i : I) : ¬(s.evict r).Hit r i := by
  simp [Hit]

omit [DecidableEq B] in
lemma hit_evict_of_ne {r' : R} (hr : r' ≠ r) (i : I) :
    (s.evict r).Hit r' i ↔ s.Hit r' i := by
  simp [Hit, hr]

omit [DecidableEq B] in
lemma Settled.evict (h : Settled D s ρ m) (hc : ∀ t, ρ r = some t → t.Complete) :
    Settled D (s.evict r) (Function.update ρ r none) m := by
  refine ⟨?_, ?_, ?_, ?_⟩
  · intro r'
    by_cases hr : r' = r
    · simp [hr]
    · simp [hr, h.slots r']
  · intro r' i hD hh
    by_cases hr : r' = r
    · subst hr
      exact h.store_evict hc hD
    · rw [store_evict_of_ne s _ _ hr]
      exact h.absent r' i hD (fun hit => hh ((hit_evict_of_ne hr i).mpr hit))
  · intro r' q hq hw
    have hr : r' ≠ r := by
      rintro rfl
      simp at hq
    rw [store_evict_of_ne s _ _ hr]
    exact h.loaded r' q (by simpa [hr] using hq) hw
  · intro r' q t hq ht
    have hr : r' ≠ r := by
      rintro rfl
      simp at hq
    exact h.stored r' q t (by simpa [hr] using hq) (by simpa [hr] using ht)

omit [DecidableEq R] [DecidableEq I] in
lemma applyTo_of_load (ha : a.isWrite = false) (d : B → V) : a.applyTo d = d := by
  have hv : a.value = none := by simpa [Access.isWrite] using ha
  simp [Access.applyTo, hv]

lemma onMemory_of_load (ha : a.isWrite = false) : a.onMemory m = m := by
  funext r i
  simp [Access.onMemory, applyTo_of_load ha]

lemma onMemory_page : a.onMemory m a.region a.page = a.applyTo (m a.region a.page) := by
  simp [Access.onMemory]

lemma onMemory_of_ne {i : I} (h : r ≠ a.region ∨ i ≠ a.page) : a.onMemory m r i = m r i := by
  have hn : ¬(r = a.region ∧ i = a.page) := by
    rintro ⟨hr, hi⟩
    exact h.elim (· hr) (· hi)
  simp [Access.onMemory, hn]

omit [DecidableEq R] [DecidableEq I] in
lemma applyTo_apply_eq {d d' : B → V} {b : B} (h : d b = d' b ∨ (a.isWrite = true ∧ b = a.byte)) :
    a.applyTo d b = a.applyTo d' b := by
  unfold Access.applyTo Access.isWrite at *
  cases hv : a.value with
  | none => simpa [hv] using h
  | some v =>
    by_cases hb : b = a.byte
    · simp [hb]
    · simp only [Function.update_of_ne hb]
      exact h.resolve_right (fun hw => hb hw.2)

lemma Settled.access_of_hit (h : Settled D s ρ m) {q : Slot I B V} (hq : s.slot a.region = some q)
    (hp : q.page = a.page) (ha : ∀ t, ρ a.region = some t → t.Allows a) :
    Settled D (s.access a) (track ρ a) (a.onMemory m) := by
  obtain ⟨t, ht, htp, htw⟩ := h.residency hq
  have hta : t.page = a.page := htp.trans hp
  have hallow := ha t ht
  rw [Allows, if_pos hta] at hallow
  rw [Pager.access_of_hit s a hq hp]
  refine ⟨?_, ?_, ?_, ?_⟩
  · intro r
    by_cases hr : r = a.region
    · subst hr
      simp [track, ht, after, hta, hp, htw]
    · simp [track, hr, h.slots r]
  · intro r i hD hh
    have hne : r ≠ a.region ∨ i ≠ a.page := by
      by_contra hc
      simp only [not_or, ne_eq, not_not] at hc
      obtain ⟨rfl, rfl⟩ := hc
      exact hh ⟨_, Function.update_self _ _ _, hp⟩
    rw [onMemory_of_ne hne]
    refine h.absent r i hD (fun hit => hh ?_)
    obtain ⟨u, hu, hui⟩ := hit
    by_cases hr : r = a.region
    · subst hr
      obtain rfl : q = u := Option.some.inj (hq.symm.trans hu)
      exact ⟨_, Function.update_self _ _ _, hui⟩
    · exact ⟨u, by simpa [hr] using hu, hui⟩
  · intro r u hu hw
    by_cases hr : r = a.region
    · subst hr
      obtain rfl : _ = u := by simpa using hu
      have hload : a.isWrite = false := by
        cases haw : a.isWrite with
        | false => rfl
        | true =>
          rw [if_pos haw, htw] at hallow
          exact absurd hallow (by simpa using hw)
      rw [onMemory_of_load hload]
      simpa [applyTo_of_load hload] using h.loaded _ q hq hw
    · rw [onMemory_of_ne (Or.inl hr)]
      exact h.loaded r u (by simpa [hr] using hu) hw
  · intro r u t' hu ht' hw b hb
    by_cases hr : r = a.region
    · subst hr
      obtain rfl : _ = u := by simpa using hu
      obtain rfl : _ = t' := by simpa [track, ht] using ht'
      simp only [after, hta, if_true, Bool.or_eq_true, Bool.and_eq_true, decide_eq_true_eq] at hb
      simp only [hp, onMemory_page]
      apply applyTo_apply_eq
      refine hb.imp (fun hb => ?_) id
      rw [← hp]
      exact h.stored _ q t hq ht hw b hb
    · rw [onMemory_of_ne (Or.inl hr)]
      exact h.stored r u t' (by simpa [hr] using hu) (by simpa [track, hr] using ht') hw b hb

lemma Settled.access_of_vacant (h : Settled D s ρ m) (hq : s.slot a.region = none)
    (hD : D a.region a.page) : Settled D (s.access a) (track ρ a) (a.onMemory m) := by
  have hh : ¬s.Hit a.region a.page := by simp [Hit, hq]
  have hρ : ρ a.region = none := by simpa [hq] using (h.slots a.region).symm
  have hev : s.evict a.region = s := by simp [Pager.evict, hq]
  rw [Pager.access_of_not_hit s a hh, hev]
  refine ⟨?_, ?_, ?_, ?_⟩
  · intro r
    by_cases hr : r = a.region
    · subst hr
      simp [track, hρ, opened]
    · simp [track, hr, h.slots r]
  · intro r i hri hhit
    have hne : r ≠ a.region ∨ i ≠ a.page := by
      by_contra hc
      simp only [not_or, ne_eq, not_not] at hc
      obtain ⟨rfl, rfl⟩ := hc
      exact hhit ⟨_, Function.update_self _ _ _, rfl⟩
    rw [onMemory_of_ne hne]
    refine h.absent r i hri (fun hit => hhit ?_)
    obtain ⟨u, hu, hui⟩ := hit
    have hr : r ≠ a.region := by
      rintro rfl
      simp [hq] at hu
    exact ⟨u, by simpa [hr] using hu, hui⟩
  · intro r u hu hw
    by_cases hr : r = a.region
    · subst hr
      obtain rfl : _ = u := by simpa using hu
      rw [onMemory_of_load hw]
      simp only at hw
      simp [applyTo_of_load hw, hw, h.absent _ _ hD hh]
    · rw [onMemory_of_ne (Or.inl hr)]
      exact h.loaded r u (by simpa [hr] using hu) hw
  · intro r u t hu ht hw b hb
    by_cases hr : r = a.region
    · subst hr
      obtain rfl : _ = u := by simpa using hu
      obtain rfl : _ = t := by simpa [track, hρ] using ht
      simp only [opened, Bool.and_eq_true, decide_eq_true_eq] at hb
      simp only [onMemory_page]
      exact applyTo_apply_eq (Or.inr hb)
    · rw [onMemory_of_ne (Or.inl hr)]
      exact h.stored r u t (by simpa [hr] using hu) (by simpa [track, hr] using ht) hw b hb

/-- Every access the discipline allows keeps the pager settled. -/
theorem Settled.access (h : Settled D s ρ m) (hD : D a.region a.page)
    (ha : ∀ t, ρ a.region = some t → t.Allows a) :
    Settled D (s.access a) (track ρ a) (a.onMemory m) := by
  by_cases hh : s.Hit a.region a.page
  · obtain ⟨q, hq, hp⟩ := hh
    exact h.access_of_hit hq hp ha
  · have hne : ∀ t, ρ a.region = some t → t.page ≠ a.page := by
      intro t ht he
      have hs := h.slots a.region
      rw [ht] at hs
      cases hq : s.slot a.region with
      | none => simp [hq] at hs
      | some q =>
        rw [hq] at hs
        simp only [Option.map_some, Option.some.injEq, Prod.mk.injEq] at hs
        exact hh ⟨q, hq, hs.1.trans he⟩
    have hc : ∀ t, ρ a.region = some t → t.Complete := by
      intro t ht
      have := ha t ht
      rwa [Allows, if_neg (hne t ht)] at this
    have hs : s.access a = (s.evict a.region).access a := by
      rw [Pager.access_of_not_hit s a hh, Pager.access_of_not_hit _ a (not_hit_evict s _ _)]
      have hev : (s.evict a.region).evict a.region = s.evict a.region := by
        conv_lhs => rw [Pager.evict]
        simp
      simp [hev, store_evict_of_not_hit s _ _ hh]
    have ht : track ρ a = track (Function.update ρ a.region none) a := by
      cases hρ : ρ a.region with
      | none => simp [track, hρ]
      | some t => simp [track, hρ, after, hne t hρ]
    rw [hs, ht]
    exact (h.evict hc).access_of_vacant (by simp) hD

omit [DecidableEq R] [DecidableEq B] in
/-- A load the discipline allows sees flat memory. -/
theorem Settled.view_of_load (h : Settled D s ρ m) (hD : D a.region a.page)
    (ha : ∀ t, ρ a.region = some t → t.Allows a) (hl : a.isWrite = false) :
    s.view a.region a.page a.byte = m a.region a.page a.byte := by
  by_cases hh : s.Hit a.region a.page
  · obtain ⟨q, hq, hp⟩ := hh
    obtain ⟨t, ht, htp, htw⟩ := h.residency hq
    have hallow := ha t ht
    rw [Allows, if_pos (htp.trans hp), if_neg (by simp [hl]), htw] at hallow
    rw [← hp, view_of_slot s _ hq]
    cases hw : q.byWrite with
    | false => rw [(h.loaded _ q hq hw).1]
    | true => exact h.stored _ q t hq ht hw _ (hallow hw)
  · rw [view_of_not_hit s _ _ hh, h.absent _ _ hD hh]

end Pager

end Paging
