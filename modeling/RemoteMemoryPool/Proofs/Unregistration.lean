import RemoteMemoryPool.Proofs.Session

/-!
# Accesses to regions that are not registered any more

`uffdman_unregister_region` cancels the handler thread of a region and drops its resident page,
and the kernel goes on watching the pages of the region. A later access raises a fault that nobody
resolves. `access_completes_iff` says that an access to allocated memory comes to an end exactly
while its region is registered.
-/

namespace RemoteMemoryPool.Proofs

open Interaction Transition

/-- No page of the region is resident, and nobody resolves its faults. -/
structure Gone (s : System) (r : Region) : Prop where
  registered : ∀ i, i < r.npages.toNat → s.uffdAt (r.page i) = some r.uffd
  handler : s.handlerOf r.uffd = none
  resident : ∀ i, i < r.npages.toNat → s.resident (r.page i) = none

section Gone

variable (env : Env) {s : System} {allocated regions : List Region} {r r' : Region} {addr : Nat}

/-- An access to such a region does not come to an end. -/
lemma Gone.fetch_eq (h : Gone s r) (hw : r.WellFormed) (hin : r.Contains addr) (byWrite : Bool) :
    s.fetch env byWrite addr = none := by
  have hidx := index_lt hin
  simp [System.fetch, System.fault, page_index hw hin, h.resident _ hidx, h.registered _ hidx, h.handler]

lemma Gone.alloced (h : Gone s r) (hk : Known s allocated) (hr : r ∈ allocated) {npages : UInt32}
    {a : Nat} (hg : Grants env npages a s) : Gone (alloced env npages a s) r := by
  have hfd : r.uffd ≠ env.userfaultfd := by
    intro he
    have hopen := (hk.uffd r hr).2.2
    rw [he, hg.uffd_unused] at hopen
    cases hopen
  constructor
  · intro i hi
    have hout : pageIn a (4096 * npages.toNat) (r.page i) = false := by
      by_contra hc
      have hunused := hg.unused _ (by simpa using hc)
      rw [hk.mapped r hr i hi] at hunused
      cases hunused
    simp only [Proofs.alloced, hout]
    exact h.registered i hi
  · simp only [Proofs.alloced, Function.update_of_ne hfd]
    exact h.handler
  · exact h.resident

lemma Gone.resolved (h : Gone s r') (hw : r.WellFormed) (hw' : r'.WellFormed) (hb : r.Beside r')
    (hin : r.Contains addr) {q : Option Slot} (hq : Slotted s r q) (byWrite : Bool) :
    Gone (resolved env r q addr byWrite s) r' := by
  obtain ⟨-, -, hat, hhand⟩ := resolved_kernel env s r q addr byWrite
  constructor
  · rw [hat]
    exact h.registered
  · rw [hhand]
    exact h.handler
  · intro i hi
    rw [resolved_resident, Function.update_of_ne (hb.symm.page_ne hw' hw hi (index_lt hin)),
      evictSlot_resident_other env (slotted_faultTaken hq byWrite)
        (fun j hj => hb.symm.page_ne hw' hw hi hj)]
    exact h.resident i hi

lemma Gone.setPage (h : Gone s r') (hw : r.WellFormed) (hw' : r'.WellFormed) (hb : r.Beside r')
    {i : Nat} (hi : i < r.npages.toNat) (d : Page) : Gone (setPage (r.page i) d s) r' := by
  refine ⟨h.registered, h.handler, ?_⟩
  intro j hj
  change Function.update s.resident (r.page i) (some d) (r'.page j) = none
  rw [Function.update_of_ne (hb.symm.page_ne hw' hw hj hi)]
  exact h.resident j hj

lemma Gone.unregistered (h : Gone s r') (hw : r.WellFormed) (hw' : r'.WellFormed) (hb : r.Beside r')
    {q : Option Slot} (hq : Slotted s r q) : Gone (unregistered env r q s) r' := by
  obtain ⟨tids, handlers, he, -, hkeep⟩ := unregistered_eq env s r q
  obtain ⟨-, -, hat, -⟩ := evictSlot_kernel env r q s
  rw [he]
  constructor
  · change ∀ i, i < r'.npages.toNat → (evictSlot env r q s).uffdAt (r'.page i) = some r'.uffd
    rw [hat]
    exact h.registered
  · have hother : ∀ t, s.globals.addrTidMap.find r.startAddr = some t → s.handlerOf r'.uffd ≠ some t := by
      intro t _
      simp [h.handler]
    exact (hkeep r'.uffd hother).trans h.handler
  · intro i hi
    change (evictSlot env r q s).resident (r'.page i) = none
    rw [evictSlot_resident_other env hq (fun j hj => hb.symm.page_ne hw' hw hi hj)]
    exact h.resident i hi

lemma gone_unregistered (ha : Attached s r) {q : Option Slot} (hq : Slotted s r q) {t : Nat}
    (ht : s.globals.addrTidMap.find r.startAddr = some t) (hh : s.handlerOf r.uffd = some t) :
    Gone (unregistered env r q s) r := by
  obtain ⟨-, -, hat, -⟩ := evictSlot_kernel env r q s
  simp only [Proofs.unregistered, ht]
  constructor
  · dsimp only
    rw [hat]
    exact ha.registered
  · simp [hh]
  · exact fun i hi => evictSlot_resident_own env hq hi

end Gone

/-- Thread ids satisfy `threadIds` and start addresses of regions do not: a thread id is the
address of memory that belongs to the thread. -/
def IdsApart (threadIds : Nat → Prop) : Event → Prop
  | .alloc env _ r => threadIds env.pthreadCreate.2 ∧ ¬threadIds r.startAddr
  | _ => True

/-- The thread of every registered region is recorded, and every other allocated region is gone. -/
structure Retired (threadIds : Nat → Prop) (c : Session) : Prop where
  linked : Linked c.sys c.allocated c.regions
  found : ∀ r ∈ c.regions, ∃ t, c.sys.globals.addrTidMap.find r.startAddr = some t
  ids : ∀ a t, c.sys.globals.addrTidMap.find a = some t → threadIds t
  starts : ∀ r ∈ c.allocated, ¬threadIds r.startAddr
  gone : ∀ r ∈ c.allocated, r ∉ c.regions → Gone c.sys r

section Runs

variable {threadIds : Nat → Prop} {c c' : Session} {e : Event}

lemma Retired.beside (h : Retired threadIds c) {r r' : Region} (hr : r ∈ c.regions)
    (hr' : r' ∈ c.allocated) (hout : r' ∉ c.regions) : r.Beside r' := by
  have hne : r ≠ r' := by
    rintro rfl
    exact hout hr
  exact (h.linked.apart r (h.linked.sub r hr) r' hr' hne).beside

lemma Retired.fetched (h : Retired threadIds c) {r : Region} (hr : r ∈ c.regions) {addr : Nat}
    (hin : r.Contains addr) {env : Env} {byWrite : Bool} {d : Page} {s : System}
    (hF : Fetched env r addr byWrite c.sys d s) :
    s.globals.addrTidMap = c.sys.globals.addrTidMap ∧
      ∀ r' ∈ c.allocated, r' ∉ c.regions → Gone s r' := by
  cases hF with
  | hit hq ht => exact ⟨rfl, h.gone⟩
  | miss hq hmiss hd =>
    rw [resolved_globals]
    refine ⟨rfl, ?_⟩
    intro r' hr' hout
    have hb := h.beside hr hr' hout
    exact (h.gone r' hr' hout).resolved env (h.linked.wf r (h.linked.sub r hr)) (h.linked.wf r' hr') hb
      hin hq byWrite

lemma Retired.step (h : Retired threadIds c) (he : IdsApart threadIds e) (hs : Session.Step c e c') :
    Retired threadIds c' := by
  have hlinked := step_linked h.linked hs
  cases hs with
  | @alloc env npages region x sys hg halloc hx hh hn hu =>
    obtain ⟨hid, hstart⟩ := he
    obtain ⟨rfl, -⟩ := step_alloc_region hg h.linked.ready halloc hx hh hn hu
    have hmap : ∀ a, (alloced env npages region.startAddr c.sys).globals.addrTidMap.find a =
        if a = region.startAddr then
          some ((c.sys.globals.addrTidMap.find region.startAddr).getD env.pthreadCreate.2)
        else c.sys.globals.addrTidMap.find a := fun a => UnorderedMap.find_insert ..
    constructor
    · exact hlinked
    · intro r hr
      dsimp only
      rw [hmap]
      split
      · exact ⟨_, rfl⟩
      · next hne =>
        rcases List.mem_append.mp hr with hr | hr
        · exact h.found r hr
        · rw [List.mem_singleton.mp hr] at hne
          exact (hne rfl).elim
    · intro a t hat
      dsimp only at hat
      rw [hmap] at hat
      split at hat
      · cases hold : c.sys.globals.addrTidMap.find region.startAddr with
        | none =>
          rw [hold] at hat
          obtain rfl : env.pthreadCreate.2 = t := Option.some.inj hat
          exact hid
        | some t' =>
          rw [hold] at hat
          obtain rfl : t' = t := Option.some.inj hat
          exact h.ids _ t' hold
      · exact h.ids a t hat
    · intro r hr
      rcases List.mem_append.mp hr with hr | hr
      · exact h.starts r hr
      · rw [List.mem_singleton.mp hr]
        exact hstart
    · intro r hr hout
      rw [List.mem_append, not_or] at hout
      rcases List.mem_append.mp hr with hr | hr
      · exact (h.gone r hr hout.1).alloced env h.linked.known hr hg
      · exact (hout.2 hr).elim
  | @load env addr value sys r hr hin hload =>
    obtain ⟨d, -, -, hF⟩ := h.linked.load_fetched hr hin hload
    obtain ⟨hmap, hgone⟩ := h.fetched hr hin hF
    exact ⟨hlinked, by rw [hmap]; exact h.found, by rw [hmap]; exact h.ids, h.starts, hgone⟩
  | @store env addr value sys r hr hin hstore =>
    obtain ⟨d, s, hF, rfl⟩ := h.linked.store_fetched hr hin hstore
    obtain ⟨hmap, hgone⟩ := h.fetched hr hin hF
    refine ⟨hlinked, ?_, ?_, h.starts, ?_⟩
    · change ∀ r ∈ c.regions, ∃ t, s.globals.addrTidMap.find r.startAddr = some t
      rw [hmap]
      exact h.found
    · change ∀ a t, s.globals.addrTidMap.find a = some t → threadIds t
      rw [hmap]
      exact h.ids
    · intro r' hr' hout
      exact (hgone r' hr' hout).setPage (h.linked.wf r (h.linked.sub r hr)) (h.linked.wf r' hr')
        (h.beside hr hr' hout) (index_lt hin) _
  | @unregister env r sys hr hun =>
    obtain ⟨hw, ha, ⟨q, hq⟩, -, -⟩ := h.linked.obtain hr
    obtain ⟨t, ht⟩ := h.found r hr
    have hh := h.linked.threads r hr t ht
    obtain rfl := h.linked.unregister_slotted hr hun hq
    have hmap : (unregistered env r q c.sys).globals.addrTidMap = c.sys.globals.addrTidMap.erase t := by
      simp only [unregistered, ht]
    refine ⟨hlinked, ?_, ?_, h.starts, ?_⟩
    · intro r' hr'
      have hr' := (List.mem_filter.mp hr').1
      -- the thread id that is erased is the start address of no region
      have hne : r'.startAddr ≠ t := by
        rintro rfl
        exact h.starts r' (h.linked.sub r' hr') (h.ids _ _ ht)
      dsimp only
      rw [hmap, UnorderedMap.find_erase, if_neg hne]
      exact h.found r' hr'
    · intro a t' hat
      dsimp only at hat
      rw [hmap] at hat
      exact h.ids a t' ((UnorderedMap.find_erase_eq_some ..).mp hat).2
    · intro r' hr' hout
      by_cases hrr : r' = r
      · subst hrr
        exact gone_unregistered env ha hq ht hh
      · have hout' : r' ∉ c.regions := by
          intro hmem
          exact hout (List.mem_filter.mpr ⟨hmem, by simpa using hrr⟩)
        exact (h.gone r' hr' hout').unregistered env hw (h.linked.wf r' hr') (h.beside hr hr' hout') hq

lemma retired_init (mem : Nat → UInt8) : Retired threadIds (Session.init mem) where
  linked := init_linked mem
  found := by simp [Session.init]
  ids := by simp [Session.init, System.init]
  starts := by simp [Session.init]
  gone := by simp [Session.init]

/-- In every state of every run of a client against its server, a load and a store of a byte of an
allocated region come to an end exactly if the region is registered; otherwise the access blocks
for ever, and no stale or foreign byte is returned. Thread ids are assumed to differ from the start
addresses of regions. -/
theorem access_completes_iff {mem : Nat → UInt8} {tr : List (Session × Event)}
    (h : Run Session.Step (Session.init mem) tr c) (hids : ∀ x ∈ tr, IdsApart threadIds x.2)
    {r : Region} (hr : r ∈ c.allocated) {addr : Nat} (hin : r.Contains addr) (env : Env) :
    ((c.sys.load env addr).isSome ↔ r ∈ c.regions) ∧
      ∀ value, (c.sys.store env addr value).isSome ↔ r ∈ c.regions := by
  have hret : Retired threadIds c := h.invariant (C := fun _ e => IdsApart threadIds e)
    (fun _ _ _ hI hC hs => hI.step hC hs) (retired_init mem) hids
  have hblocks : r ∉ c.regions → ∀ byWrite, c.sys.fetch env byWrite addr = none := by
    intro hout byWrite
    exact (hret.gone r hr hout).fetch_eq env (hret.linked.wf r hr) hin byWrite
  constructor
  · constructor
    · intro hsome
      by_contra hout
      simp [System.load, hblocks hout] at hsome
    · intro hreg
      exact ((hret.linked.completes r hreg env).2 addr hin).1
  · intro value
    constructor
    · intro hsome
      by_contra hout
      simp [System.store, hblocks hout] at hsome
    · intro hreg
      exact ((hret.linked.completes r hreg env).2 addr hin).2 value

/-- The first region is allocated and unregistered; a load of its first byte blocks. -/
theorem first_region_blocks :
    ∃ tr c, Run Session.Step (Session.init fun _ => 0) tr c ∧ tr.length = 2 ∧
      firstRegion ∈ c.allocated ∧ (c.sys.load firstEnv 4096).isSome = false := by
  have hl := run_linked first_run
  have hmem : firstRegion ∈ (firstSession firstSystem fun _ => 0).regions := List.mem_singleton.mpr rfl
  obtain ⟨hw, ha, ⟨q, hq⟩, -, -⟩ := hl.obtain hmem
  have hun : Session.Step (firstSession firstSystem fun _ => 0) (.unregister firstEnv firstRegion) _ :=
    .unregister hmem (unregister_eq hl.ready ha hw hq)
  have hrun := first_run.snoc hun
  have hids : ∀ x ∈ [(Session.init fun _ => 0, Event.alloc firstEnv 2 firstRegion)] ++
      [(firstSession firstSystem fun _ => 0, Event.unregister firstEnv firstRegion)],
      IdsApart (fun t => t = 1) x.2 := by
    simp [IdsApart, grantingEnv, firstRegion]
  have hiff := (access_completes_iff hrun hids (List.mem_singleton.mpr rfl) firstRegion_contains.1
    firstEnv).1
  refine ⟨_, _, hrun, rfl, List.mem_singleton.mpr rfl, ?_⟩
  rw [← Bool.not_eq_true, hiff]
  simp [firstSession]

end Runs

end RemoteMemoryPool.Proofs
