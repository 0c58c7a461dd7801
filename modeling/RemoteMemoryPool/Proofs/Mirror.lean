import RemoteMemoryPool.Proofs.PageStore
import RemoteMemoryPool.Proofs.Slots

/-!
# The client and the server as a pager

`Mirrors` ties a session to the pager it implements: the backing store is the server's page
store, the slot of a region is the page its handler recorded, and the shared buffer is the
static page of the handlers. Every event is matched by the pager.
-/

namespace RemoteMemoryPool.Proofs

open Interaction Transition Paging

/-- Regions are named by their start address. -/
abbrev RegionPager := Pager Nat Nat (Fin 4096) UInt8

abbrev RegionAccess := Paging.Access Nat Nat (Fin 4096) UInt8

/-- The access of a byte as the pager sees it; `value` is what a store writes. -/
def Region.access (r : Region) (addr : Nat) (value : Option UInt8) : RegionAccess :=
  ⟨r.startAddr, r.index addr, System.byteOf addr, value⟩

/-- The server holds the pages of the backing store. -/
structure StoreMirrors (w : Host) (allocated : List Region) (st : PageStore)
    (store : Nat → Nat → Page) : Prop where
  server : Refines w st
  pages : ∀ r ∈ allocated, ∃ pages, st r.hndl = some pages ∧ pages.length = r.npages.toNat ∧
    ∀ i (hi : i < pages.length), pages[i] = store r.startAddr i

/-- The system implements the pager `p`. -/
structure Mirrors (s : System) (allocated regions : List Region) (st : PageStore)
    (p : RegionPager) : Prop where
  store : StoreMirrors s.host allocated st p.store
  slots : ∀ r ∈ regions, Slotted s r (p.slot r.startAddr)
  buf : s.page.getD zeroPage = p.buf
  vacant : ∀ a, (∀ r ∈ regions, r.startAddr ≠ a) → p.slot a = none
  fresh : ∀ a, (∀ r ∈ allocated, r.startAddr ≠ a) → p.store a = fun _ => zeroPage

lemma Mirrors.slotsOf {s : System} {allocated regions : List Region} {st : PageStore}
    {p : RegionPager} (h : Mirrors s allocated regions st p) : Slots s regions p.slot :=
  ⟨h.slots, h.vacant⟩

def emptyPager : RegionPager := ⟨fun _ _ => zeroPage, fun _ => none, zeroPage⟩

lemma init_mirrors (mem : Nat → UInt8) :
    Mirrors (System.init mem) [] [] (fun _ => none) emptyPager where
  store := ⟨fresh_refines mem, by simp⟩
  slots := by simp
  buf := rfl
  vacant _ _ := rfl
  fresh _ _ := rfl

section Store

variable {w : Host} {allocated : List Region} {st : PageStore} {store : Nat → Nat → Page}

lemma StoreMirrors.serverPage {s : System} (h : StoreMirrors s.host allocated st store) {r : Region}
    (hr : r ∈ allocated) {i : Nat} (hi : i < r.npages.toNat) :
    serverPage s r i = store r.startAddr i := by
  obtain ⟨pages, hp, hlen, hpages⟩ := h.pages r hr
  obtain ⟨a, n, hl⟩ := h.server.live_of_some hp
  obtain ⟨pages', hp', hh⟩ := h.server.live r.hndl a n hl
  obtain rfl : pages = pages' := Option.some.inj (hp.symm.trans hp')
  have hin : i < n.toNat := by
    have := hh.length
    omega
  have hoff : (UInt32.ofNat i).toNat = i := toNat_ofNat_lt hin
  rw [Proofs.serverPage, UnorderedMap.index_of_find_some _ _ hl.1,
    addrWithOffset_page hh.small (ofNat_lt hin) hh.bound, hoff, hh.contents i (by omega),
    hpages i (by omega)]

lemma StoreMirrors.written (h : StoreMirrors w allocated st store) {s : System} {regions : List Region}
    (hL : Linked s allocated regions) {r : Region} (hr : r ∈ allocated) {a : Nat}
    (hl : Live w.server r.hndl a r.npages) {i : Nat} (hi : i < r.npages.toNat) (d : Page) :
    ∃ st', StoreMirrors
      { w with space := w.space.memcpyTo (Server.addrWithOffset a 4096 (UInt32.ofNat i)) d }
      allocated st' (fun a' j => if a' = r.startAddr ∧ j = i then d else store a' j) := by
  obtain ⟨pages, hp, hlen, hpages⟩ := h.pages r hr
  have hoff : (UInt32.ofNat i).toNat = i := toNat_ofNat_lt hi
  have hw := h.server.written hl hp (ofNat_lt hi) d
  rw [hoff] at hw
  refine ⟨_, hw, ?_⟩
  intro r' hr'
  by_cases hrr : r' = r
  · subst hrr
    refine ⟨_, Function.update_self _ _ _, by simpa using hlen, ?_⟩
    intro j hj
    rw [List.length_set] at hj
    by_cases hji : j = i
    · subst hji
      simp
    · rw [List.getElem_set_ne (fun h => hji h.symm), hpages j hj]
      simp [hji]
  · obtain ⟨pages', hp', hlen', hpages'⟩ := h.pages r' hr'
    have hh : r'.hndl ≠ r.hndl := (hL.apart r' hr' r hr hrr).hndl
    have hst : r'.startAddr ≠ r.startAddr := fun he => hrr (hL.start_inj hr' hr he)
    refine ⟨pages', by rw [Function.update_of_ne hh, hp'], hlen', ?_⟩
    intro j hj
    simp [hst, hpages' j hj]

end Store

section Faults

variable (env : Env) {s : System} {allocated regions : List Region} {st : PageStore}
  {p : RegionPager} {r : Region}

lemma Mirrors.evictStore (h : Mirrors s allocated regions st p) (hL : Linked s allocated regions)
    (hr : r ∈ regions) :
    ∃ st', StoreMirrors (evictSlot env r (p.slot r.startAddr) s).host allocated st'
      (p.evict r.startAddr).store := by
  obtain ⟨-, -, -, -, a, hl⟩ := hL.obtain hr
  have hq := h.slots r hr
  cases hs : p.slot r.startAddr with
  | none =>
    rw [show p.evict r.startAddr = p by simp [Pager.evict, hs]]
    exact ⟨st, h.store⟩
  | some t =>
    rw [hs] at hq
    have hin := hq.inside t rfl
    cases hw : t.byWrite with
    | false =>
      have hstore : (p.evict r.startAddr).store = p.store := by
        funext a' j
        simp [Pager.evict, hs, hw]
      have hhost : (evictSlot env r (some t) s).host = s.host := by simp [evictSlot, hw]
      rw [hstore, hhost]
      exact ⟨st, h.store⟩
    | true =>
      have hstore : (p.evict r.startAddr).store =
          fun a' j => if a' = r.startAddr ∧ j = t.page then t.contents else p.store a' j := by
        simp [Pager.evict, hs, hw]
      have hhost : (evictSlot env r (some t) s).host = { s.host with
          space := s.host.space.memcpyTo
            (Server.addrWithOffset a 4096 (UInt32.ofNat t.page)) t.contents } := by
        simp [evictSlot, hw, exchange, handle_writeRequest env hl hin]
      rw [hstore, hhost]
      exact h.store.written hL (hL.sub r hr) hl hin t.contents

lemma evict_fresh {a : Nat} (hne : a ≠ r.startAddr) : (p.evict r.startAddr).store a = p.store a := by
  funext j
  exact Pager.store_evict_of_ne p _ j hne

lemma Mirrors.fetched (h : Mirrors s allocated regions st p) (hL : Linked s allocated regions)
    (hr : r ∈ regions) {addr : Nat} (hin : r.Contains addr) {byWrite : Bool} {d : Page}
    {s' : System} (hf : Fetched env r addr byWrite s d s') :
    ∃ st' t, Mirrors s' allocated regions st' (p.fetch r.startAddr (r.index addr) byWrite) ∧
      (p.fetch r.startAddr (r.index addr) byWrite).slot r.startAddr = some t ∧
      t.page = r.index addr ∧ t.contents = d := by
  obtain ⟨-, -, -, -, a, hl⟩ := hL.obtain hr
  cases hf with
  | @hit t hq ht =>
    have hslot : p.slot r.startAddr = some t := (h.slots r hr).unique hq
    have hhit : p.Hit r.startAddr (r.index addr) := ⟨t, hslot, ht⟩
    rw [Pager.fetch, if_pos hhit]
    exact ⟨st, t, h, hslot, ht, rfl⟩
  | @miss q hq hmiss d hd =>
    obtain rfl : q = p.slot r.startAddr := hq.unique (h.slots r hr)
    have hhit : ¬p.Hit r.startAddr (r.index addr) := by
      rintro ⟨t, ht, he⟩
      exact hmiss t ht he
    have hbuf : d = p.buf := by simpa [hd] using h.buf
    obtain ⟨st', hst'⟩ := h.evictStore env hL hr
    have hpage : serverPage (evictSlot env r (p.slot r.startAddr) s) r (r.index addr) =
        (p.evict r.startAddr).store r.startAddr (r.index addr) :=
      hst'.serverPage (hL.sub r hr) (index_lt hin)
    have hinst : installedPage env r (p.slot r.startAddr) addr byWrite d s =
        if byWrite then p.buf else (p.evict r.startAddr).store r.startAddr (r.index addr) := by
      rw [installedPage, hpage, hbuf]
    obtain ⟨hp, -, hhost⟩ := resolved_eq env hl hin hd hq byWrite
    have hslots := h.slotsOf.resolved env hL hr hin hd byWrite
    rw [hinst] at hslots
    have hslot : (p.fault r.startAddr (r.index addr) byWrite).slot = Function.update p.slot r.startAddr
        (some ⟨r.index addr, byWrite, if byWrite then p.buf
          else (p.evict r.startAddr).store r.startAddr (r.index addr)⟩) := by
      simp [Pager.fault]
    rw [Pager.fetch, if_neg hhit]
    rw [← hslot] at hslots
    refine ⟨st', _, ⟨?_, hslots.slotted, ?_, hslots.vacant, ?_⟩, Function.update_self _ _ _, rfl, ?_⟩
    · rw [hhost]
      exact hst'
    · rw [hp, hinst]
      simp [Pager.fault]
    · intro a' ha'
      have hne : a' ≠ r.startAddr := fun he => ha' r (hL.sub r hr) he.symm
      rw [Pager.store_fault, evict_fresh hne]
      exact h.fresh a' ha'
    · rw [hinst]
      simp

end Faults

def pagerStep (p : RegionPager) : Event → RegionPager
  | .alloc _ _ _ => p
  | .load _ r addr _ => p.access (r.access addr none)
  | .store _ r addr value => p.access (r.access addr (some value))
  | .unregister _ r => p.evict r.startAddr

def Event.Small : Event → Prop
  | .alloc _ npages _ => npages.toNat < 2 ^ 20
  | _ => True

section Events

variable {env : Env} {s : System} {allocated regions : List Region} {st : PageStore}
  {p : RegionPager} {r : Region} {addr : Nat}

lemma Mirrors.load (h : Mirrors s allocated regions st p) (hL : Linked s allocated regions)
    (hr : r ∈ regions) (hin : r.Contains addr) {value : UInt8} {s' : System}
    (hload : s.load env addr = some (value, s')) :
    (∃ st', Mirrors s' allocated regions st' (p.access (r.access addr none))) ∧
      value = p.view r.startAddr (r.index addr) (System.byteOf addr) := by
  obtain ⟨d, -, hv, hF⟩ := hL.load_fetched hr hin hload
  obtain ⟨st', t, hm, hslot, -, rfl⟩ := h.fetched env hL hr hin hF
  constructor
  · rw [Pager.access_of_load _ _ rfl]
    exact ⟨st', hm⟩
  · rw [← hv, Pager.contents_fetch_load p _ _ hslot]

lemma Mirrors.stored (h : Mirrors s allocated regions st p) (hL : Linked s allocated regions)
    (hr : r ∈ regions) (hin : r.Contains addr) {value : UInt8} {s' : System}
    (hstore : s.store env addr value = some s') :
    ∃ st', Mirrors s' allocated regions st' (p.access (r.access addr (some value))) := by
  obtain ⟨d, s₁, hF, rfl⟩ := hL.store_fetched hr hin hstore
  obtain ⟨st', t, hm, hslot, ht, rfl⟩ := h.fetched env hL hr hin hF
  have hacc : p.access (r.access addr (some value)) =
      { p.fetch r.startAddr (r.index addr) true with
        slot := Function.update (p.fetch r.startAddr (r.index addr) true).slot r.startAddr
          (some { t with contents := Function.update t.contents (System.byteOf addr) value }) } := by
    simp [Pager.access, Region.access, Access.isWrite, Access.applyTo, hslot]
  have hL' : Linked s₁ allocated regions := (hF.slotted hL hr hin).1
  have hslots := hm.slotsOf.setPage hL' hr hslot (Function.update t.contents (System.byteOf addr) value)
  rw [hacc]
  refine ⟨st', hm.store, ?_, hm.buf, hslots.vacant, hm.fresh⟩
  have hpage : r.page (r.index addr) = r.page t.page := by rw [ht]
  rw [hpage]
  exact hslots.slotted

lemma Mirrors.unregistered (h : Mirrors s allocated regions st p) (hL : Linked s allocated regions)
    (hr : r ∈ regions) :
    ∃ st', Mirrors (unregistered env r (p.slot r.startAddr) s) allocated
      (regions.filter (fun r' => r' ≠ r)) st' (p.evict r.startAddr) := by
  obtain ⟨tids, handlers, he, -, -⟩ := unregistered_eq env s r (p.slot r.startAddr)
  obtain ⟨st', hst'⟩ := h.evictStore env hL hr
  have hslots := h.slotsOf.unregistered env hL hr
  rw [← Pager.slot_evict] at hslots
  refine ⟨st', ?_, hslots.slotted, ?_, hslots.vacant, ?_⟩
  · rw [he]
    exact hst'
  · rw [he, Pager.buf_evict, ← h.buf]
    exact congrArg (fun d => Option.getD d zeroPage) (evictSlot_page env r _ s)
  · intro a ha
    have hne : a ≠ r.startAddr := fun he => ha r (hL.sub r hr) he.symm
    rw [evict_fresh hne]
    exact h.fresh a ha

lemma Mirrors.alloced (h : Mirrors s allocated regions st p) (hL : Linked s allocated regions)
    {npages : UInt32} {a : Nat} (hg : Grants env npages a s) (hn : npages.toNat < 2 ^ 20) :
    ∃ st', Mirrors (alloced env npages a s) (allocated ++ [newRegion env npages a s])
      (regions ++ [newRegion env npages a s]) st' p := by
  obtain ⟨b, hb, -, hh⟩ := hg.handle
  have hstart := hL.start_ne_new hg
  have hslots := h.slotsOf.alloced hL hg
  have hcount : s.host.server.handleCount.toNat + 1 < 2 ^ 32 := by
    have h1 := hL.serves.count
    have h2 := hL.length_le
    omega
  have hans := hg.serverAnswer
  rw [hb, toNat_mul_4096 hn] at hans
  have hR := h.store.server.alloced (npages_ne_zero_of_mul hg.serverLen) hn hans hcount
  have hhost : (Proofs.alloced env npages a s).host =
      ⟨Server.alloced s.host.server npages b,
        (s.host.space.mmap (4096 * npages.toNat) (some b)).2⟩ := by
    change (s.host.handle env.serverOs (allocRequest env s npages)).2 = _
    rw [hh, toNat_mul_4096 hn]
  refine ⟨Function.update st (handleOfCount s.host.server.handleCount)
    (some (List.replicate npages.toNat zeroPage)), ⟨?_, ?_⟩, hslots.slotted, h.buf, hslots.vacant, ?_⟩
  · rw [hhost]
    exact hR
  · intro r hr
    rcases List.mem_append.mp hr with hr | hr
    · obtain ⟨pages, hp, hrest⟩ := h.store.pages r hr
      have hne : r.hndl ≠ handleOfCount s.host.server.handleCount :=
        (hL.new_apart hg r hr).hndl.symm
      exact ⟨pages, by rw [Function.update_of_ne hne, hp], hrest⟩
    · obtain rfl := List.mem_singleton.mp hr
      refine ⟨_, Function.update_self _ _ _, List.length_replicate, ?_⟩
      intro i hi
      rw [List.getElem_replicate]
      exact (congrFun (h.fresh a hstart) i).symm
  · intro a' ha'
    exact h.fresh a' (fun r hr => ha' r (List.mem_append_left _ hr))

end Events

/-- Every event is matched by the pager, and a load returns what the pager shows. -/
theorem step_mirrors {c c' : Session} {e : Event} {st : PageStore} {p : RegionPager}
    (hL : Linked c.sys c.allocated c.regions) (hM : Mirrors c.sys c.allocated c.regions st p)
    (hs : e.Small) (h : Session.Step c e c') :
    (∃ st', Mirrors c'.sys c'.allocated c'.regions st' (pagerStep p e)) ∧
      ∀ env r addr value, e = .load env r addr value →
        value = p.view r.startAddr (r.index addr) (System.byteOf addr) := by
  cases h with
  | alloc hg h hx hh hn hu =>
    obtain ⟨rfl, hr⟩ := step_alloc_region hg hL.ready h hx hh hn hu
    refine ⟨?_, by simp⟩
    have hm := hM.alloced hL hg hs
    rw [← hr] at hm
    exact hm
  | @load env addr value sys r hr hin h =>
    obtain ⟨hm, hv⟩ := hM.load hL hr hin h
    refine ⟨hm, ?_⟩
    rintro env' r' addr' value' he
    cases he
    exact hv
  | @store env addr value sys r hr hin h => exact ⟨hM.stored hL hr hin h, by simp⟩
  | @unregister env r sys hr h =>
    refine ⟨?_, by simp⟩
    obtain rfl := hL.unregister_slotted hr h (hM.slots r hr)
    exact hM.unregistered hL hr

end RemoteMemoryPool.Proofs
