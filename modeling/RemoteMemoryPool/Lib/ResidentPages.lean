import RemoteMemoryPool.Lib.Pager

/-!
# What a resident page holds

A page opened by a load holds what flat memory has in the bytes stored since then, and what was
fetched when it was opened in the others. `Tracks` says so of all regions, whatever happens to the
backing store meanwhile.
-/

namespace Paging

variable {R I B V : Type}

/-- The resident pages `slot`, given the residencies in progress, flat memory and the page last
fetched in each region. -/
structure Tracks (slot : R → Option (Slot I B V)) (ρ : R → Option (Residency I B))
    (m : R → I → B → V) (f : R → B → V) : Prop where
  slots : ∀ r, (slot r).map (fun q => (q.page, q.byWrite)) = (ρ r).map (fun t => (t.page, t.byWrite))
  loaded : ∀ r q t, slot r = some q → ρ r = some t → q.byWrite = false →
    ∀ b, q.contents b = if t.stored b then m r q.page b else f r b

namespace Tracks

open Residency

variable {slot : R → Option (Slot I B V)} {ρ : R → Option (Residency I B)} {m : R → I → B → V}
  {f : R → B → V}

lemma congr (h : Tracks slot ρ m f) {m' : R → I → B → V}
    (hm : ∀ r q, slot r = some q → m r q.page = m' r q.page) : Tracks slot ρ m' f := by
  refine ⟨h.slots, ?_⟩
  intro r q t hq ht hw b
  rw [← hm r q hq]
  exact h.loaded r q t hq ht hw b

lemma slot_of_residency (h : Tracks slot ρ m f) {r : R} {t : Residency I B} (ht : ρ r = some t) :
    ∃ q, slot r = some q ∧ q.page = t.page ∧ q.byWrite = t.byWrite := by
  have hs := h.slots r
  rw [ht] at hs
  cases hq : slot r with
  | none => simp [hq] at hs
  | some q =>
    rw [hq] at hs
    simp only [Option.map_some, Option.some.injEq, Prod.mk.injEq] at hs
    exact ⟨q, rfl, hs.1, hs.2⟩

variable [DecidableEq R]

lemma evict (h : Tracks slot ρ m f) (r : R) :
    Tracks (Function.update slot r none) (Function.update ρ r none) m f := by
  constructor
  · intro r'
    by_cases hr : r' = r
    · simp [hr]
    · simp [hr, h.slots r']
  · intro r' q t hq ht
    have hr : r' ≠ r := by
      rintro rfl
      simp at hq
    exact h.loaded r' q t (by simpa [hr] using hq) (by simpa [hr] using ht)

variable [DecidableEq I] [DecidableEq B] {a : Access R I B V}

omit [DecidableEq R] [DecidableEq I] in
lemma applyTo_apply_of_not {d : B → V} {b : B} (h : ¬(a.isWrite = true ∧ b = a.byte)) :
    a.applyTo d b = d b := by
  unfold Access.applyTo Access.isWrite at *
  cases hv : a.value with
  | none => rfl
  | some v =>
    have hb : b ≠ a.byte := fun hb => h ⟨by simp [hv], hb⟩
    exact Function.update_of_ne hb _ _

lemma access_of_hit (h : Tracks slot ρ m f) {q : Slot I B V} (hq : slot a.region = some q)
    (hp : q.page = a.page) :
    Tracks (Function.update slot a.region (some { q with contents := a.applyTo q.contents }))
      (track ρ a) (a.onMemory m) f := by
  obtain ⟨t, ht, htp, htw⟩ := residency_of_slot (h.slots a.region) hq
  have hta : t.page = a.page := htp.trans hp
  constructor
  · intro r
    by_cases hr : r = a.region
    · subst hr
      simp [track, ht, after, hta, hp, htw]
    · simp [track, hr, h.slots r]
  · intro r u t' hu ht' hw b
    by_cases hr : r = a.region
    · subst hr
      obtain rfl : _ = u := by simpa using hu
      obtain rfl : _ = t' := by simpa [track, ht] using ht'
      have hold := h.loaded _ q t hq ht hw b
      simp only [after, hta, if_true, hp, Pager.onMemory_page]
      rw [hp] at hold
      by_cases hb : a.isWrite = true ∧ b = a.byte
      · rw [Pager.applyTo_apply_eq (Or.inr hb), if_pos (by simp [hb])]
      · have hstored : (t.stored b || (a.isWrite && decide (b = a.byte))) = t.stored b := by
          simpa using fun h1 h2 => absurd ⟨h1, h2⟩ hb
        rw [applyTo_apply_of_not hb, applyTo_apply_of_not hb, hstored]
        exact hold
    · rw [Pager.onMemory_of_ne (Or.inl hr)]
      exact h.loaded r u t' (by simpa [hr] using hu) (by simpa [track, hr] using ht') hw b

lemma access_of_miss (h : Tracks slot ρ m f)
    (hmiss : ∀ q, slot a.region = some q → q.page ≠ a.page) (d : B → V) :
    Tracks (Function.update slot a.region (some ⟨a.page, a.isWrite, a.applyTo d⟩)) (track ρ a)
      (a.onMemory m) (if a.isWrite then f else Function.update f a.region d) := by
  have htrack : track ρ a a.region = some (opened a) := by
    cases ht : ρ a.region with
    | none => simp [track, ht]
    | some t =>
      obtain ⟨q, hq, hpage, -⟩ := h.slot_of_residency ht
      have hne : t.page ≠ a.page := by
        rw [← hpage]
        exact hmiss q hq
      simp [track, ht, after, hne]
  constructor
  · intro r
    by_cases hr : r = a.region
    · subst hr
      simp [htrack, opened]
    · simp [track, hr, h.slots r]
  · intro r u t hu ht hw b
    by_cases hr : r = a.region
    · subst hr
      obtain rfl : _ = u := by simpa using hu
      obtain rfl : opened a = t := Option.some.inj (htrack.symm.trans ht)
      have hload : a.isWrite = false := hw
      simp [opened, hload, Pager.applyTo_of_load hload]
    · rw [Pager.onMemory_of_ne (Or.inl hr)]
      have hold := h.loaded r u t (by simpa [hr] using hu) (by simpa [track, hr] using ht) hw b
      cases a.isWrite with
      | true => exact hold
      | false => simpa [hr] using hold

end Tracks

/-! ### Pages fetched from a pager's store -/

namespace Pager

/-- The stored copy of a resident page that a load opened is still the page that was fetched. -/
def Unmoved (s : Pager R I B V) (f : R → B → V) : Prop :=
  ∀ r q, s.slot r = some q → q.byWrite = false → s.store r q.page = f r

variable [DecidableEq R] [DecidableEq I] {s : Pager R I B V} {f : R → B → V}

lemma Unmoved.evict (h : s.Unmoved f) (r : R) : (s.evict r).Unmoved f := by
  intro r' q hq hw
  have hr : r' ≠ r := by
    rintro rfl
    simp at hq
  rw [store_evict_of_ne s _ _ hr]
  exact h r' q (by simpa [hr] using hq) hw

variable [DecidableEq B] {a : Access R I B V}

lemma Unmoved.access_of_hit (h : s.Unmoved f) (hh : s.Hit a.region a.page) :
    (s.access a).Unmoved f := by
  obtain ⟨t, ht, hp⟩ := hh
  rw [Pager.access_of_hit s a ht hp]
  intro r q hq hw
  by_cases hr : r = a.region
  · subst hr
    obtain rfl : _ = q := by simpa using hq
    exact h _ t ht hw
  · exact h r q (by simpa [hr] using hq) hw

/-- A fault writes back a page of its own region only, and not the one it opens. -/
lemma Unmoved.access_of_not_hit (h : s.Unmoved f) (hh : ¬s.Hit a.region a.page) :
    (s.access a).Unmoved
      (if a.isWrite then f else Function.update f a.region (s.store a.region a.page)) := by
  rw [Pager.access_of_not_hit s a hh]
  intro r q hq hw
  by_cases hr : r = a.region
  · subst hr
    obtain rfl : _ = q := by simpa using hq
    have hload : a.isWrite = false := hw
    simp [hload, store_evict_of_not_hit s _ _ hh]
  · have hold := h r q (by simpa [hr] using hq) hw
    change (s.evict a.region).store r q.page = _
    rw [store_evict_of_ne s _ _ hr, hold]
    cases a.isWrite with
    | true => rfl
    | false => simp [hr]

end Pager

end Paging
