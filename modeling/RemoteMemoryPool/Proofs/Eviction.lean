import RemoteMemoryPool.Lib.ResidentPages
import RemoteMemoryPool.Proofs.Coherence
import RemoteMemoryPool.Proofs.PageOps

/-!
# The pages eviction drops

`invalidate_prev_resolved_page` writes the page it drops back to the server only if a write fault
made it resident. `evictions_lossless_iff` says exactly in which runs nothing is lost, from what
the program stored in each residency.
-/

namespace RemoteMemoryPool.Proofs

open Interaction Transition Paging

/-- The resident pages in a range are the server's copies. -/
def Saved (regions : List Region) (s : System) (addr len : Nat) : Prop :=
  ∀ r ∈ regions, ∀ i < r.npages.toNat, pageIn addr len (r.page i) = true →
    ∀ d, s.resident (r.page i) = some d → d = serverPage s r i

/-- Whenever the event drops pages with `MADV_DONTNEED`, they are the server's copies at that
moment. -/
def Lossless (c : Session) (e : Event) : Prop :=
  ∀ s addr len, (s, .discard addr len) ∈ e.pageOps c.sys → Saved c.regions s addr len

/-- The event ends the residency `t` in region `r`: it is the next access to another page of the
region, or the unregistration of the region. -/
def Ends (ρ : Nat → Option RegionResidency) (r : Region) (t : RegionResidency) : Event → Prop
  | .alloc _ _ _ => False
  | .load _ r' addr _ => r' = r ∧ ρ r.startAddr = some t ∧ t.page ≠ r.index addr
  | .store _ r' addr _ => r' = r ∧ ρ r.startAddr = some t ∧ t.page ≠ r.index addr
  | .unregister _ r' => r' = r ∧ ρ r.startAddr = some t

/-- The page most recently fetched by a read fault of the region that starts at `a`. -/
def fetchedIn (tr : List (Session × Event)) (a : Nat) : Page :=
  (((fetches tr).filter (fun x => x.1.startAddr = a)).getLast?.map Prod.snd).getD zeroPage

/-- The residency `t` in region `r` was opened by a store; or the server has every byte stored in it,
and its other bytes are still as they were fetched. -/
def Clean (tr : List (Session × Event)) (c : Session) (r : Region) (t : RegionResidency) : Prop :=
  t.byWrite = false → ∀ b : Fin 4096, serverPage c.sys r t.page b =
    if t.stored b then c.memory (r.startAddr + 4096 * t.page + b) else fetchedIn tr r.startAddr b

/-- The residency the event ends, if there is one, is clean. -/
def EndsClean (tr : List (Session × Event)) (c : Session) (e : Event) : Prop :=
  ∀ r t, Ends (residencies (tr.map Prod.snd)) r t e → Clean tr c r t

section Discards

variable (env : Env) {s s₀ : System} {allocated regions : List Region} {r : Region}
  {q : Option Slot}

/-- Dropping the recorded page of a region loses nothing exactly when a store opened it, so that it
has just been written back, or it is the server's copy. -/
lemma Linked.discards_saved_iff (h : Linked s allocated regions) (hr : r ∈ regions)
    (hq : Slotted s r q) (hhost : s₀.host = s.host) (hres : s₀.resident = s.resident) :
    (∀ s' addr len, (s', .discard addr len) ∈ discards env r q s₀ → Saved regions s' addr len) ↔
      ∀ t, q = some t → t.byWrite = false → t.contents = serverPage s r t.page := by
  obtain ⟨hw, -, -, -, a, hl⟩ := h.obtain hr
  cases q with
  | none => simp [discards]
  | some t =>
    have hin := hq.inside t rfl
    have hpage : s.resident (r.page t.page) = some t.contents := by
      simpa using hq.resident t.page hin
    have hcopy : serverPage (beforeDiscard env r t s₀) r t.page =
        if t.byWrite then t.contents else serverPage s r t.page := by
      rw [serverPage_beforeDiscard env (by rw [hhost]; exact hl) hin, serverPage_congr hhost]
    constructor
    · intro hall u hu hbw
      obtain rfl := Option.some.inj hu
      have hsaved := hall _ _ _ (List.mem_singleton.mpr rfl) r hr t.page hin
        ((pageIn_start hw _ _).mpr rfl) t.contents (by rw [beforeDiscard_resident, hres, hpage])
      rw [hcopy, hbw] at hsaved
      simpa using hsaved
    · intro hclean s' addr len hmem r' hr' i hi hpi d hd
      obtain ⟨rfl, rfl, rfl⟩ : s' = beforeDiscard env r t s₀ ∧
          addr = r.startAddr + 4096 * t.page ∧ len = 4096 := by
        simpa [discards] using hmem
      have hpi' := (pageIn_start hw _ _).mp hpi
      -- the page dropped belongs to no other region
      have hrr : r' = r := by
        by_contra hne
        have hal := h.sub r hr
        have hal' := h.sub r' hr'
        exact (h.apart r' hal' r hal hne).beside.page_ne (h.wf r' hal') hw hi hin hpi'
      subst hrr
      obtain rfl : i = t.page := page_inj.mp hpi'
      rw [beforeDiscard_resident, hres, hpage] at hd
      obtain rfl := Option.some.inj hd
      rw [hcopy]
      cases hbw : t.byWrite with
      | true => simp
      | false => simpa using hclean t rfl hbw

lemma mem_faultEffects_discard {addr : Nat} {byWrite : Bool} {s' : System} {a len : Nat} :
    (s', PageOp.discard a len) ∈ faultEffects env r q addr byWrite s ↔
      (s', .discard a len) ∈ discards env r q s := by
  simp [faultEffects]

end Discards

/-! ### The resident pages of a run -/

/-- The resident pages after the steps `tr`: which they are, who opened them, and what those
opened by a load hold. -/
structure Traced (tr : List (Session × Event)) (c : Session) (slot : Nat → Option Slot) : Prop where
  slots : Slots c.sys c.regions slot
  tracks : Tracks slot (residencies (tr.map Prod.snd)) (flat c.memory) (fetchedIn tr)

lemma fetchedIn_snoc (tr : List (Session × Event)) (x : Session × Event) :
    fetchedIn (tr ++ [x]) =
      match fetched x with
      | none => fetchedIn tr
      | some (r, d) => Function.update (fetchedIn tr) r.startAddr d := by
  funext a
  unfold fetchedIn fetches
  rw [List.filterMap_append]
  cases hx : fetched x with
  | none => simp [hx]
  | some y =>
    by_cases ha : y.1.startAddr = a
    · simp [hx, ← ha]
    · have ha' : a ≠ y.1.startAddr := fun he => ha he.symm
      simp [hx, ha, ha']

section Traced

variable {tr : List (Session × Event)} {c c' : Session} {slot : Nat → Option Slot} {r : Region}
  {addr : Nat}

lemma init_traced (mem : Nat → UInt8) : Traced [] (Session.init mem) (fun _ => none) where
  slots := ⟨by simp [Session.init], fun _ _ => rfl⟩
  tracks := ⟨by simp [residencies], by simp⟩

lemma Traced.clean_iff (h : Traced tr c slot) :
    (∀ q, slot r.startAddr = some q → q.byWrite = false → q.contents = serverPage c.sys r q.page) ↔
      ∀ t, residencies (tr.map Prod.snd) r.startAddr = some t → Clean tr c r t := by
  constructor
  · intro hclean t ht hbw b
    obtain ⟨q, hq, hpage, hw⟩ := h.tracks.slot_of_residency ht
    have hload := h.tracks.loaded _ q t hq ht (hw.trans hbw) b
    rw [← hpage, ← hclean q hq (hw.trans hbw)]
    exact hload
  · intro hclean q hq hbw
    obtain ⟨t, ht, hpage, hw⟩ := Residency.residency_of_slot (h.tracks.slots r.startAddr) hq
    funext b
    have hload := h.tracks.loaded _ q t hq ht hbw b
    rw [hload, ← hpage, hclean t ht (hw.trans hbw) b]
    rfl

lemma Traced.access_lossless_iff (h : Traced tr c slot) (hL : Linked c.sys c.allocated c.regions)
    (hr : r ∈ c.regions) (hin : r.Contains addr) (env : Env) (byWrite : Bool) :
    (∀ s a len, (s, .discard a len) ∈ accessOps env byWrite addr c.sys → Saved c.regions s a len) ↔
      ∀ t, residencies (tr.map Prod.snd) r.startAddr = some t → t.page ≠ r.index addr →
        Clean tr c r t := by
  have hq := h.slots.slotted r hr
  by_cases hres : c.sys.resident (addr / 4096) = none
  · have hmiss := (hL.resident_eq_none_iff hr hin hq).mp hres
    have hhost : (faultTaken r.uffd byWrite addr c.sys).host = c.sys.host := rfl
    simp only [hL.accessOps_miss env hr hin hres hq byWrite, mem_faultEffects_discard]
    rw [hL.discards_saved_iff env hr hq hhost rfl, h.clean_iff]
    constructor
    · intro hclean t ht _
      exact hclean t ht
    · intro hclean t ht
      apply hclean t ht
      obtain ⟨q, hs, hpage, -⟩ := h.tracks.slot_of_residency ht
      rw [← hpage]
      exact hmiss q hs
  · rw [accessOps_hit env hres]
    rw [hL.resident_eq_none_iff hr hin hq] at hres
    simp only [not_forall] at hres
    obtain ⟨q, hs, hpage⟩ := hres
    refine ⟨fun _ t ht hne => ?_, by simp⟩
    obtain ⟨q', hs', hpage', -⟩ := h.tracks.slot_of_residency ht
    obtain rfl : q' = q := Option.some.inj (hs'.symm.trans hs)
    exact absurd (hpage'.symm.trans (not_not.mp hpage)) hne

lemma Traced.lossless_iff {e : Event} (h : Traced tr c slot)
    (hL : Linked c.sys c.allocated c.regions) (hstep : Session.Step c e c') :
    Lossless c e ↔ EndsClean tr c e := by
  cases hstep with
  | alloc => simp [Lossless, EndsClean, Ends, pageOps_alloc]
  | @load env addr value sys r hr hin hl =>
    refine (h.access_lossless_iff hL hr hin env false).trans ?_
    constructor
    · rintro hclean _ t ⟨rfl, ht, hne⟩
      exact hclean t ht hne
    · intro hclean t ht hne
      exact hclean r t ⟨rfl, ht, hne⟩
  | @store env addr value sys r hr hin hl =>
    refine (h.access_lossless_iff hL hr hin env true).trans ?_
    constructor
    · rintro hclean _ t ⟨rfl, ht, hne⟩
      exact hclean t ht hne
    · intro hclean t ht hne
      exact hclean r t ⟨rfl, ht, hne⟩
  | @unregister env r sys hr hu =>
    obtain ⟨hw, ha, -, -, -⟩ := hL.obtain hr
    have hq := h.slots.slotted r hr
    rw [Lossless, pageOps_unregister env hL.ready ha hw hq,
      hL.discards_saved_iff env hr hq rfl rfl, h.clean_iff]
    constructor
    · rintro hclean _ t ⟨rfl, ht⟩
      exact hclean t ht
    · intro hclean t ht
      exact hclean r t ⟨rfl, ht⟩

lemma Traced.access (h : Traced tr c slot) (hL : Linked c.sys c.allocated c.regions)
    (hr : r ∈ c.regions) (hin : r.Contains addr) {env : Env} (value : Option UInt8) {d : Page}
    {s' : System} (hF : Fetched env r addr value.isSome c.sys d s') :
    ∃ t : Slot, t.page = r.index addr ∧ t.contents = d ∧
      Slots s' c.regions (Function.update slot r.startAddr (some t)) ∧
      Tracks (Function.update slot r.startAddr
          (some { t with contents := (r.access addr value).applyTo d }))
        (Residency.track (residencies (tr.map Prod.snd)) (r.access addr value))
        ((r.access addr value).onMemory (flat c.memory))
        (if value.isSome || (c.sys.resident (addr / 4096)).isSome then fetchedIn tr
          else Function.update (fetchedIn tr) r.startAddr d) := by
  have hq := h.slots.slotted r hr
  cases hF with
  | @hit t hqt ht =>
    have hslot : slot r.startAddr = some t := hq.unique hqt
    refine ⟨t, ht, rfl, ?_, ?_⟩
    · rw [← hslot, Function.update_eq_self]
      exact h.slots
    · rw [if_pos (by simp [hL.resident_of_hit hr hin hqt ht])]
      exact h.tracks.access_of_hit (a := r.access addr value) hslot ht
  | @miss q hqq hmiss d₀ hd =>
    obtain rfl : q = slot r.startAddr := hqq.unique hq
    have hres := (hL.resident_eq_none_iff hr hin hq).mpr hmiss
    refine ⟨_, rfl, rfl, h.slots.resolved env hL hr hin hd value.isSome, ?_⟩
    have htrack := h.tracks.access_of_miss (a := r.access addr value) hmiss
      (installedPage env r (slot r.startAddr) addr value.isSome d₀ c.sys)
    rw [hres, Option.isSome_none, Bool.or_false]
    exact htrack

lemma Traced.step {e : Event} (h : Traced tr c slot) (hL : Linked c.sys c.allocated c.regions)
    (hstep : Session.Step c e c') : ∃ slot', Traced (tr ++ [(c, e)]) c' slot' := by
  cases hstep with
  | alloc hg ha hx hh hn hu =>
    obtain ⟨rfl, hregion⟩ := step_alloc_region hg hL.ready ha hx hh hn hu
    have hslots := h.slots.alloced hL hg
    rw [← hregion] at hslots
    refine ⟨slot, hslots, ?_⟩
    rw [residencies_snoc, fetchedIn_snoc]
    exact h.tracks
  | @load env addr value sys r hr hin hl =>
    obtain ⟨d, hf, -, hF⟩ := hL.load_fetched hr hin hl
    obtain ⟨t, -, rfl, hslots, htracks⟩ := h.access hL hr hin none hF
    refine ⟨_, hslots, ?_⟩
    rw [Pager.applyTo_of_load rfl, Pager.onMemory_of_load rfl] at htracks
    have hfetched : fetchedIn (tr ++ [(c, .load env r addr value)]) =
        if (none : Option UInt8).isSome || (c.sys.resident (addr / 4096)).isSome then fetchedIn tr
        else Function.update (fetchedIn tr) r.startAddr t.contents := by
      rw [fetchedIn_snoc, fetched_load hL hr hin hf hF]
      cases (c.sys.resident (addr / 4096)).isSome <;> rfl
    rw [residencies_snoc, hfetched]
    exact htracks
  | @store env addr value sys r hr hin hl =>
    obtain ⟨d, s', hF, rfl⟩ := hL.store_fetched hr hin hl
    obtain ⟨t, ht, rfl, hslots, htracks⟩ := h.access hL hr hin (some value) hF
    have hL' := (hF.slotted hL hr hin).1
    have hset := hslots.setPage hL' hr (Function.update_self _ _ _)
      (Function.update t.contents (System.byteOf addr) value)
    rw [Function.update_idem, ht] at hset
    refine ⟨_, hset, ?_⟩
    rw [residencies_snoc, fetchedIn_snoc]
    rw [ht] at htracks
    refine htracks.congr ?_
    intro a q hq
    exact hL.onMemory_eq (hL.sub r hr) hin c.memory value (pagesOf_mono hL.sub (hset.inside hq))
  | @unregister env r sys hr hu =>
    obtain rfl := hL.unregister_slotted hr hu (h.slots.slotted r hr)
    refine ⟨_, h.slots.unregistered env hL hr, ?_⟩
    rw [residencies_snoc, fetchedIn_snoc]
    exact h.tracks.evict r.startAddr

end Traced

lemma run_traced {mem : Nat → UInt8} {tr : List (Session × Event)} {c : Session}
    (h : Run Session.Step (Session.init mem) tr c) : ∃ slot, Traced tr c slot := by
  induction h with
  | nil => exact ⟨_, init_traced mem⟩
  | snoc hr hs ih =>
    obtain ⟨slot, hT⟩ := ih
    exact hT.step (run_linked hr) hs

section Small

variable {tr : List (Session × Event)} {c c' : Session} {st : PageStore} {p : RegionPager}

lemma Tied.unmoved_step {e : Event} (h : Tied c st p) (hmoved : p.Unmoved (fetchedIn tr))
    (hstep : Session.Step c e c') : (pagerStep p e).Unmoved (fetchedIn (tr ++ [(c, e)])) := by
  have hL := h.linked
  have hhit {r : Region} {addr : Nat} (hr : r ∈ c.regions) (hin : r.Contains addr) :
      c.sys.resident (addr / 4096) = none ↔ ¬p.Hit r.startAddr (r.index addr) := by
    rw [hL.resident_eq_none_iff hr hin (h.mirrors.slots r hr)]
    simp [Pager.Hit]
  rw [fetchedIn_snoc]
  cases hstep with
  | alloc => exact hmoved
  | @load env addr value sys r hr hin hl =>
    obtain ⟨d, hf, -, hF⟩ := hL.load_fetched hr hin hl
    rw [fetched_load hL hr hin hf hF]
    by_cases hh : p.Hit r.startAddr (r.index addr)
    · have hres : c.sys.resident (addr / 4096) ≠ none := fun hc => (hhit hr hin).mp hc hh
      rw [if_pos (Option.isSome_iff_ne_none.mpr hres)]
      exact hmoved.access_of_hit (a := r.access addr none) hh
    · have hres := (hhit hr hin).mpr hh
      obtain ⟨-, t, -, hslot, -, hd⟩ := h.mirrors.fetched env hL hr hin hF
      have hdata : d = p.store r.startAddr (r.index addr) := by
        rw [← hd, Pager.contents_fetch_load p _ _ hslot, Pager.view_of_not_hit p _ _ hh]
      rw [hres, hdata]
      exact hmoved.access_of_not_hit (a := r.access addr none) hh
  | @store env addr value sys r hr hin hl =>
    by_cases hh : p.Hit r.startAddr (r.index addr)
    · exact hmoved.access_of_hit (a := r.access addr (some value)) hh
    · exact hmoved.access_of_not_hit (a := r.access addr (some value)) hh
  | @unregister env r sys hr hu => exact hmoved.evict r.startAddr

lemma run_unmoved {mem : Nat → UInt8} (h : Run Session.Step (Session.init mem) tr c)
    (hsmall : ∀ x ∈ tr, x.2.Small) : ∃ st p, Tied c st p ∧ p.Unmoved (fetchedIn tr) := by
  induction h with
  | nil => exact ⟨_, _, init_tied mem, by simp [Pager.Unmoved, emptyPager]⟩
  | @snoc c c' tr e hr hs ih =>
    rw [forall_mem_snoc] at hsmall
    obtain ⟨st, p, ht, hmoved⟩ := ih hsmall.1
    obtain ⟨⟨st', ht'⟩, -⟩ := ht.step hsmall.2 hs
    exact ⟨st', _, ht', ht.unmoved_step hmoved hs⟩

/-- The server's copy of a page that is resident for loads is what was fetched. -/
lemma run_fetchedIn {mem : Nat → UInt8} (h : Run Session.Step (Session.init mem) tr c)
    (hsmall : ∀ x ∈ tr, x.2.Small) {r : Region} (hr : r ∈ c.regions) {t : RegionResidency}
    (ht : residencies (tr.map Prod.snd) r.startAddr = some t) (hbw : t.byWrite = false) :
    fetchedIn tr r.startAddr = serverPage c.sys r t.page := by
  obtain ⟨slot, hT⟩ := run_traced h
  obtain ⟨st, p, htied, hmoved⟩ := run_unmoved h hsmall
  have hL := htied.linked
  obtain ⟨q, hq, hpage, hw⟩ := hT.tracks.slot_of_residency ht
  have hslot : p.slot r.startAddr = some q := by
    rw [← hq]
    exact (htied.mirrors.slots r hr).unique (hT.slots.slotted r hr)
  have hin := (hT.slots.slotted r hr).inside q hq
  rw [← hpage, htied.mirrors.store.serverPage (hL.sub r hr) hin,
    hmoved r.startAddr q hslot (hw.trans hbw)]

end Small

/-- The server has every byte stored in the residency the event ends, if a load opened it. -/
def StoresSaved (tr : List (Session × Event)) (c : Session) (e : Event) : Prop :=
  ∀ r t, Ends (residencies (tr.map Prod.snd)) r t e → t.byWrite = false → ∀ b : Fin 4096,
    t.stored b = true → serverPage c.sys r t.page b = c.memory (r.startAddr + 4096 * t.page + b)

/-- In a run with regions of fewer than `2 ^ 20` pages only the bytes stored matter. -/
lemma endsClean_iff_storesSaved {mem : Nat → UInt8} {tr : List (Session × Event)} {c c' : Session}
    {e : Event} (h : Run Session.Step (Session.init mem) tr c) (hsmall : ∀ x ∈ tr, x.2.Small)
    (hstep : Session.Step c e c') : EndsClean tr c e ↔ StoresSaved tr c e := by
  have hmem : ∀ r t, Ends (residencies (tr.map Prod.snd)) r t e →
      r ∈ c.regions ∧ residencies (tr.map Prod.snd) r.startAddr = some t := by
    intro r t hends
    cases hstep with
    | alloc => exact absurd hends id
    | load hr =>
      obtain ⟨rfl, ht, -⟩ := hends
      exact ⟨hr, ht⟩
    | store hr =>
      obtain ⟨rfl, ht, -⟩ := hends
      exact ⟨hr, ht⟩
    | unregister hr =>
      obtain ⟨rfl, ht⟩ := hends
      exact ⟨hr, ht⟩
  constructor
  · intro hclean r t hends hbw b hb
    rw [hclean r t hends hbw b, if_pos hb]
  · intro hsaved r t hends hbw b
    obtain ⟨hr, ht⟩ := hmem r t hends
    by_cases hb : t.stored b = true
    · rw [if_pos hb, hsaved r t hends hbw b hb]
    · rw [if_neg hb, run_fetchedIn h hsmall hr ht hbw]

/-- In every run, with any number of regions of any size: every page dropped, at a fault or when a
region is unregistered, is the server's copy at that moment exactly when every residency ends
clean, that is, a store opened it, or the server has every byte stored in it and its other bytes
are as they were fetched. With regions of fewer than `2 ^ 20` pages the latter is always so. -/
theorem evictions_lossless_iff {mem : Nat → UInt8} {tr : List (Session × Event)} {c : Session}
    (h : Run Session.Step (Session.init mem) tr c) :
    ((∀ x ∈ tr, Lossless x.1 x.2) ↔ ∀ g x, g ++ [x] <+: tr → EndsClean g x.1 x.2) ∧
      ((∀ x ∈ tr, x.2.Small) →
        ((∀ x ∈ tr, Lossless x.1 x.2) ↔ ∀ g x, g ++ [x] <+: tr → StoresSaved g x.1 x.2)) := by
  have hbefore := h.before
  have hiff : (∀ x ∈ tr, Lossless x.1 x.2) ↔ ∀ g x, g ++ [x] <+: tr → EndsClean g x.1 x.2 := by
    constructor
    · intro hall g x hg
      obtain ⟨hrun, u, hs⟩ := hbefore g x hg
      obtain ⟨slot, hT⟩ := run_traced hrun
      exact (hT.lossless_iff (run_linked hrun) hs).mp (hall x (hg.subset (by simp)))
    · intro hall x hx
      obtain ⟨g, u, hg, hrun, hs⟩ := h.reached x hx
      obtain ⟨slot, hT⟩ := run_traced hrun
      exact (hT.lossless_iff (run_linked hrun) hs).mpr (hall g x hg)
  refine ⟨hiff, ?_⟩
  intro hsmall
  rw [hiff]
  apply forall_congr'
  intro g
  apply forall_congr'
  intro x
  apply imp_congr_right
  intro hg
  obtain ⟨hrun, u, hs⟩ := hbefore g x hg
  exact endsClean_iff_storesSaved hrun
    (fun y hy => hsmall y (hg.subset (List.mem_append_left _ hy))) hs

/-- A page that a store opened is written back before it is dropped. -/
theorem first_store_lossless :
    ∃ tr c, Run Session.Step (Session.init fun _ => 0) tr c ∧ tr.length = 3 ∧
      ∀ x ∈ tr, Lossless x.1 x.2 := by
  have hv₁ : (firstSystem.store firstEnv 4096 7).isSome = true := rfl
  have hv₂ : ((stored firstEnv 4096 7 firstSystem).load firstEnv 8192).map Prod.fst = some 0 := by
    decide +kernel
  have h := (first_run.snoc (first_store firstRegion_contains.1 hv₁)).snoc
    (first_load firstRegion_contains.2 hv₂)
  refine ⟨_, _, h, rfl, ((evictions_lossless_iff h).2 (by simp [Event.Small])).mpr ?_⟩
  rw [forall_prefix_snoc, forall_prefix_snoc]
  refine ⟨⟨?_, ?_⟩, ?_⟩
  · refine (forall_prefix_snoc (l := [])).mpr ⟨by simp, ?_⟩
    intro r t hends
    exact absurd hends id
  · rintro r t ⟨rfl, ht, -⟩
    simp [residencies, trackEvent] at ht
  · rintro r t ⟨rfl, ht, -⟩ hbw
    obtain rfl : _ = t := by simpa [residencies, trackEvent, Residency.track, Region.access] using ht
    simp [Residency.opened, Access.isWrite] at hbw

/-- A page that a load opened and that was stored to since is dropped without being saved. -/
theorem dirty_page_dropped :
    ∃ tr c c', Run Session.Step (Session.init fun _ => 0) tr c ∧
      Session.Step c (.load firstEnv firstRegion 8192 0) c' ∧
      ¬Lossless c (.load firstEnv firstRegion 8192 0) := by
  have hv₁ : (firstSystem.load firstEnv 4096).map Prod.fst = some 0 := by decide +kernel
  have hv₂ : ((loaded firstEnv 4096 firstSystem).store firstEnv 4096 7).isSome = true := by
    decide +kernel
  have hv₃ : ((stored firstEnv 4096 7 (loaded firstEnv 4096 firstSystem)).load
      firstEnv 8192).map Prod.fst = some 0 := by
    decide +kernel
  have h := (first_run.snoc (first_load firstRegion_contains.1 hv₁)).snoc
    (first_store firstRegion_contains.1 hv₂)
  have hstep : Session.Step (firstSession (stored firstEnv 4096 7 (loaded firstEnv 4096 firstSystem))
      (Function.update (fun _ => 0) 4096 7)) (.load firstEnv firstRegion 8192 0) _ :=
    first_load firstRegion_contains.2 hv₃
  refine ⟨_, _, _, h, hstep, ?_⟩
  obtain ⟨slot, hT⟩ := run_traced h
  rw [hT.lossless_iff (run_linked h) hstep]
  intro hclean
  have hserver : serverPage (stored firstEnv 4096 7 (loaded firstEnv 4096 firstSystem))
      firstRegion 0 0 = 0 := by
    decide +kernel
  have hbyte := hclean firstRegion ⟨0, false, fun b => decide (b = System.byteOf 4096)⟩
    ⟨rfl, ?_, by decide⟩ rfl 0
  · change serverPage _ firstRegion 0 0 = (7 : UInt8) at hbyte
    exact absurd (hserver.symm.trans hbyte) (by decide)
  · simp [residencies, trackEvent, Residency.track, Region.access, Residency.opened,
      Residency.after, Access.isWrite, firstRegion, Region.index]

end RemoteMemoryPool.Proofs
