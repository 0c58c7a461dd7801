import RemoteMemoryPool.Proofs.Session

/-!
# Which page of each region is resident

`Slots s regions slot` says that the client records for every registered region the page `slot`
gives for its start address, and that no other start address has one. Every event changes the
slot of one region at most.
-/

namespace RemoteMemoryPool.Proofs

open Interaction Transition

section Regions

variable {s : System} {r : Region}

lemma Slotted.unique {q q' : Option Slot} (h : Slotted s r q) (h' : Slotted s r q') : q = q' := by
  have haddr := h.addr.symm.trans h'.addr
  have hop := h.op.symm.trans h'.op
  cases q with
  | none =>
    cases q' with
    | none => rfl
    | some t => simp at haddr
  | some u =>
    cases q' with
    | none => simp at haddr
    | some t =>
      have hpage : u.page = t.page := by
        have : r.startAddr + 4096 * u.page = r.startAddr + 4096 * t.page := by simpa using haddr
        omega
      have hw : u.byWrite = t.byWrite := by
        have : opOf u.byWrite = opOf t.byWrite := by simpa using hop
        revert this
        cases u.byWrite <;> cases t.byWrite <;> simp [opOf]
      have hc : u.contents = t.contents := by
        have h1 := h.resident u.page (h.inside u rfl)
        have h2 := h'.resident u.page (h.inside u rfl)
        simpa [hpage] using h1.symm.trans h2
      obtain ⟨a, b, c⟩ := u
      obtain ⟨a', b', c'⟩ := t
      simp only at hpage hw hc
      rw [hpage, hw, hc]

end Regions

/-- The resident page of every region, by its start address. -/
structure Slots (s : System) (regions : List Region) (slot : Nat → Option Slot) : Prop where
  slotted : ∀ r ∈ regions, Slotted s r (slot r.startAddr)
  vacant : ∀ a, (∀ r ∈ regions, r.startAddr ≠ a) → slot a = none

namespace Slots

variable {env : Env} {s s' : System} {allocated regions : List Region} {slot : Nat → Option Slot}
  {r : Region} {addr : Nat}

lemma inside (h : Slots s regions slot) {a : Nat} {q : Slot} (hq : slot a = some q) :
    ∃ r ∈ regions, r.startAddr = a ∧ q.page < r.npages.toNat := by
  by_cases ha : ∃ r ∈ regions, r.startAddr = a
  · obtain ⟨r, hr, rfl⟩ := ha
    exact ⟨r, hr, rfl, (h.slotted r hr).inside q hq⟩
  · rw [h.vacant a (fun r hr he => ha ⟨r, hr, he⟩)] at hq
    simp at hq

lemma update (h : Slots s regions slot) (hL : Linked s allocated regions) (hr : r ∈ regions)
    {q : Option Slot} (hnew : Slotted s' r q)
    (hold : ∀ r' ∈ regions, r ≠ r' → Slotted s' r' (slot r'.startAddr)) :
    Slots s' regions (Function.update slot r.startAddr q) := by
  constructor
  · intro r' hr'
    by_cases hrr : r = r'
    · subst hrr
      rwa [Function.update_self]
    · have hst : r'.startAddr ≠ r.startAddr := fun he =>
        hrr (hL.start_inj (hL.sub r hr) (hL.sub r' hr') he.symm)
      rw [Function.update_of_ne hst]
      exact hold r' hr' hrr
  · intro a ha
    rw [Function.update_of_ne (fun he => ha r hr he.symm)]
    exact h.vacant a ha

lemma resolved (env : Env) (h : Slots s regions slot) (hL : Linked s allocated regions)
    (hr : r ∈ regions) (hin : r.Contains addr) {d : Page} (hd : s.page = some d) (byWrite : Bool) :
    Slots (resolved env r (slot r.startAddr) addr byWrite s) regions
      (Function.update slot r.startAddr (some ⟨r.index addr, byWrite,
        installedPage env r (slot r.startAddr) addr byWrite d s⟩)) := by
  obtain ⟨hw, -, -, -, a, hl⟩ := hL.obtain hr
  have hq := h.slotted r hr
  apply h.update hL hr (slotted_resolved env hl hin hd hq byWrite)
  intro r' hr' hrr
  have hal' := hL.sub r' hr'
  exact slotted_resolved_other env hw (hL.wf r' hal') (hL.apart r (hL.sub r hr) r' hal' hrr).beside
    hin hq (h.slotted r' hr') byWrite

lemma setPage (h : Slots s regions slot) (hL : Linked s allocated regions) (hr : r ∈ regions)
    {t : Slot} (ht : slot r.startAddr = some t) (d : Page) :
    Slots (setPage (r.page t.page) d s) regions
      (Function.update slot r.startAddr (some { t with contents := d })) := by
  have hq := h.slotted r hr
  rw [ht] at hq
  apply h.update hL hr (slotted_setPage hq d)
  intro r' hr' hrr
  have hal := hL.sub r hr
  have hal' := hL.sub r' hr'
  exact slotted_setPage_other (hL.wf r hal) (hL.wf r' hal') (hL.apart r hal r' hal' hrr).beside
    (hq.inside t rfl) (h.slotted r' hr') d

lemma alloced (h : Slots s regions slot) (hL : Linked s allocated regions) {npages : UInt32}
    {a : Nat} (hg : Grants env npages a s) :
    Slots (alloced env npages a s) (regions ++ [newRegion env npages a s]) slot := by
  constructor
  · intro r hr
    rcases List.mem_append.mp hr with hr | hr
    · have hq := h.slotted r hr
      exact ⟨hq.addr, hq.op, hq.inside, hq.resident⟩
    · obtain rfl := List.mem_singleton.mp hr
      rw [show slot (newRegion env npages a s).startAddr = none from
        h.vacant a (fun r hr => hL.start_ne_new hg r (hL.sub r hr))]
      exact hL.new_slotted hg
  · intro a' ha'
    exact h.vacant a' (fun r hr => ha' r (List.mem_append_left _ hr))

lemma unregistered (env : Env) (h : Slots s regions slot) (hL : Linked s allocated regions)
    (hr : r ∈ regions) :
    Slots (unregistered env r (slot r.startAddr) s) (regions.filter (fun r' => r' ≠ r))
      (Function.update slot r.startAddr none) := by
  have hal := hL.sub r hr
  constructor
  · intro r' hr'
    obtain ⟨hr', hne⟩ : r' ∈ regions ∧ r' ≠ r := by simpa using List.mem_filter.mp hr'
    have hal' := hL.sub r' hr'
    have hap := hL.apart r' hal' r hal hne
    have hw' := hL.wf r' hal'
    have hw := hL.wf r hal
    rw [Function.update_of_ne (hap.beside.start_ne hw' hw)]
    exact slotted_unregistered_other env hw hw' hap (h.slotted r hr) (h.slotted r' hr')
  · intro a ha
    by_cases hra : a = r.startAddr
    · simp [hra]
    · rw [Function.update_of_ne hra]
      apply h.vacant
      intro r' hr' hstart
      have hne : r' ≠ r := by
        rintro rfl
        exact hra hstart.symm
      exact ha r' (by simpa using ⟨hr', hne⟩) hstart

end Slots

end RemoteMemoryPool.Proofs
