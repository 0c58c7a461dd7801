import RemoteMemoryPool.Proofs.Installation

/-!
# One resident page per region

Regions are registered, faults are raised on any of their pages, also on a page that has become
resident meanwhile, and the application stores to resident pages. Whatever the server answers,
the resident pages of a region are the one page recorded for it, which is the page of its latest
fault, and no fault installs a page that is resident already.
-/

namespace RemoteMemoryPool.Proofs

open Interaction Transition

/-- A client process and the regions it has registered. -/
structure Watch where
  sys : System
  regions : List Region

def Watch.init (mem : Nat → UInt8) : Watch := ⟨System.init mem, []⟩

/-- A region is registered by `rmp_alloc`, a byte of a resident page is stored, or the handler
thread of a region handles a fault. -/
inductive WatchEvent
  | register (env : Env) (npages : UInt32) (region : Region)
  | store (env : Env) (region : Region) (addr : Nat) (value : UInt8)
  | fault (env : Env) (region : Region) (addr : Nat) (isWrite : Bool)

inductive Watch.Step (c : Watch) : WatchEvent → Watch → Prop
  | register {env : Env} {npages : UInt32} {region : Region} {x : Exchange} {sys : System}
      (hg : Registers env npages region.startAddr c.sys)
      (h : c.sys.alloc env npages = some (.addr region.startAddr, sys))
      (hx : sys.log.getLast? = some x) (hh : region.hndl = x.reply.hndl)
      (hn : region.npages = npages) (hu : region.uffd = env.userfaultfd) :
      Step c (.register env npages region) ⟨sys, c.regions ++ [region]⟩
  | store {env : Env} {addr : Nat} {value : UInt8} {sys : System} {r : Region} (hr : r ∈ c.regions)
      (hin : r.Contains addr) (hres : c.sys.resident (addr / 4096) ≠ none)
      (h : c.sys.store env addr value = some sys) :
      Step c (.store env r addr value) { c with sys := sys }
  | fault {env : Env} {addr : Nat} {isWrite : Bool} {sys : System} {r : Region}
      (hr : r ∈ c.regions) (hin : r.Contains addr)
      (h : c.sys.fault env isWrite addr = some sys) :
      Step c (.fault env r addr isWrite) { c with sys := sys }

/-- The address and the operation of the latest fault of a region. -/
def latestFault (r : Region) (tr : List (Watch × WatchEvent)) : Option (Nat × Bool) :=
  tr.foldl (fun latest x => match x.2 with
    | .fault _ r' addr isWrite => if r' = r then some (addr, isWrite) else latest
    | _ => latest) none

/-- The client between two events. Nothing is said about the server. -/
structure Watched (s : System) (regions : List Region) : Prop where
  ready : Ready s
  unlocked : s.locked = false
  page : regions ≠ [] → s.page ≠ none
  wf : ∀ r ∈ regions, r.WellFormed
  beside : ∀ r ∈ regions, ∀ r' ∈ regions, r ≠ r' → r.Beside r'
  attached : ∀ r ∈ regions, Attached s r
  slotted : ∀ r ∈ regions, ∃ q, Slotted s r q
  known : Known s regions
  keys : ∀ u, s.globals.uffdPrevResolvedAddr.Contains u ↔ s.globals.uffdPrevResolvedOp.Contains u

lemma init_watched (mem : Nat → UInt8) : Watched (System.init mem) [] where
  ready := ⟨rfl, rfl⟩
  unlocked := rfl
  page h := absurd rfl h
  wf := by simp
  beside := by simp
  attached := by simp
  slotted := by simp
  known := (init_linked mem).known
  keys _ := Iff.rfl

section Invariant

variable {env : Env} {s : System} {regions : List Region} {r : Region} {addr : Nat}

lemma Watched.page_of_mem (h : Watched s regions) (hr : r ∈ regions) : ∃ d, s.page = some d :=
  Option.ne_none_iff_exists'.mp (h.page (List.ne_nil_of_mem hr))

lemma resolved_page_some (env : Env) (r : Region) (q : Option Slot) (addr : Nat) {d : Page}
    (hd : s.page = some d) (byWrite : Bool) :
    ∃ d', (resolved env r q addr byWrite s).page = some d' := by
  cases byWrite with
  | true => exact ⟨d, (evictSlot_page env r q _).trans hd⟩
  | false => exact ⟨_, rfl⟩

lemma Watched.resolved (h : Watched s regions) (hr : r ∈ regions) (hin : r.Contains addr)
    {q : Option Slot} (hq : Slotted s r q) (env : Env) (byWrite : Bool) :
    Watched (resolved env r q addr byWrite s) regions := by
  obtain ⟨d, hd⟩ := h.page_of_mem hr
  obtain ⟨d', hp⟩ := resolved_page_some env r q addr hd byWrite
  obtain ⟨-, -, hat, hf⟩ := resolved_kernel env s r q addr byWrite
  have hg := resolved_globals env s r q addr byWrite
  refine ⟨?_, rfl, ?_, h.wf, h.beside, ?_, ?_, h.known.resolved env hr hin hq byWrite, ?_⟩
  · exact h.ready.congr (by rw [hg]) (resolved_requests env s r q addr byWrite)
  · intro _
    rw [hp]
    simp
  · intro r' hr'
    exact (h.attached r' hr').congr (by rw [hg]) (by rw [hg]) (by rw [hg]) hat hf
  · intro r' hr'
    obtain ⟨q', hq'⟩ := h.slotted r' hr'
    by_cases hrr : r = r'
    · subst hrr
      exact ⟨_, slotted_resolved_page env hin hq byWrite hp⟩
    · exact ⟨q', slotted_resolved_other env (h.wf r hr) (h.wf r' hr') (h.beside r hr r' hr' hrr)
        hin hq hq' byWrite⟩
  · intro u
    have hku := h.keys u
    unfold UnorderedMap.Contains at hku ⊢
    rw [hg]
    by_cases hu : u = r.uffd
    · simp [hu]
    · simpa [hu] using hku

lemma Watched.setPage (h : Watched s regions) (hr : r ∈ regions) {t : Slot}
    (hq : Slotted s r (some t)) (d : Page) :
    Watched (setPage (r.page t.page) d s) regions := by
  have hin := hq.inside t rfl
  refine ⟨⟨h.ready.connected, h.ready.idle⟩, h.unlocked, h.page, h.wf, h.beside, ?_, ?_,
    h.known.setPage hr hin d, h.keys⟩
  · intro r' hr'
    exact (h.attached r' hr').congr rfl rfl rfl rfl rfl
  · intro r' hr'
    obtain ⟨q', hq'⟩ := h.slotted r' hr'
    by_cases hrr : r = r'
    · subst hrr
      exact ⟨_, slotted_setPage hq d⟩
    · exact ⟨q', slotted_setPage_other (h.wf r hr) (h.wf r' hr') (h.beside r hr r' hr' hrr) hin
        hq' d⟩

lemma Watched.alloced (h : Watched s regions) {npages : UInt32} {a : Nat}
    (hg : Registers env npages a s) :
    Watched (alloced env npages a s) (regions ++ [registeredRegion env npages a s]) := by
  have hb : ∀ r ∈ regions, (registeredRegion env npages a s).Beside r := fun r hr =>
    h.known.new_beside hg hr (h.wf r hr)
  refine ⟨⟨h.ready.connected, h.ready.idle⟩, h.unlocked, ?_, ?_, ?_, ?_, ?_, h.known.alloced hg,
    h.keys⟩
  · intro _
    change some _ ≠ none
    simp
  · exact forall_mem_snoc.mpr ⟨h.wf, hg.wellFormed⟩
  · exact forall_pair_mem_snoc h.beside
      (fun r hr => ⟨fun _ => (hb r hr).symm, fun _ => hb r hr⟩) (fun hne => absurd rfl hne)
  · refine forall_mem_snoc.mpr ⟨?_, h.known.new_attached hg⟩
    intro r hr
    exact (h.attached r hr).alloced (h.wf r hr) hg (hb r hr)
  · refine forall_mem_snoc.mpr ⟨?_, none, h.known.new_slotted hg⟩
    intro r hr
    obtain ⟨q, hq⟩ := h.slotted r hr
    exact ⟨q, hq.addr, hq.op, hq.inside, hq.resident⟩

lemma Watched.fault_eq (h : Watched s regions) (hr : r ∈ regions) (hin : r.Contains addr)
    {q : Option Slot} (hq : Slotted s r q) (env : Env) (byWrite : Bool) :
    s.fault env byWrite addr = some (Proofs.resolved env r q addr byWrite s) := by
  obtain ⟨d, hd⟩ := h.page_of_mem hr
  exact Proofs.fault_eq env h.ready h.unlocked (h.attached r hr) (h.wf r hr) hin hd hq byWrite

lemma Slotted.hit_of_resident {q : Option Slot} (hq : Slotted s r q) (hw : r.WellFormed)
    (hin : r.Contains addr) (hres : s.resident (addr / 4096) ≠ none) :
    ∃ t, q = some t ∧ t.page = r.index addr := by
  rw [page_index hw hin, hq.resident _ (index_lt hin)] at hres
  cases q with
  | none => simp at hres
  | some t => exact ⟨t, rfl, by simpa using hres⟩

lemma Watched.store_eq (h : Watched s regions) (hr : r ∈ regions) (hin : r.Contains addr)
    {t : Slot} (hq : Slotted s r (some t)) (ht : t.page = r.index addr) (env : Env) (value : UInt8) :
    s.store env addr value = some (Proofs.setPage (r.page t.page)
      (Function.update t.contents (System.byteOf addr) value) s) := by
  have hw := h.wf r hr
  rw [System.store, fetch_hit env hw hin hq ht true, Option.map_some, page_index hw hin, ← ht]
  rfl

end Invariant

section Runs

variable {mem : Nat → UInt8} {tr : List (Watch × WatchEvent)} {c c' : Watch} {e : WatchEvent}

/-- What an event does to the client. -/
lemma watch_step_cases (h : Watched c.sys c.regions) (hs : Watch.Step c e c') :
    (∃ env npages a, Registers env npages a c.sys ∧
        e = .register env npages (registeredRegion env npages a c.sys) ∧
        c' = ⟨alloced env npages a c.sys, c.regions ++ [registeredRegion env npages a c.sys]⟩) ∨
      (∃ env r addr value t d, r ∈ c.regions ∧ Slotted c.sys r (some t) ∧
        e = .store env r addr value ∧ c' = ⟨setPage (r.page t.page) d c.sys, c.regions⟩) ∨
      (∃ env r addr isWrite q, r ∈ c.regions ∧ r.Contains addr ∧ Slotted c.sys r q ∧
        e = .fault env r addr isWrite ∧
        c' = ⟨resolved env r q addr isWrite c.sys, c.regions⟩) := by
  cases hs with
  | @register env npages region x sys hg hal hx hh hn hu =>
    obtain ⟨rfl, hr⟩ := registered_alloc hg h.ready hal hx hh hn hu
    refine .inl ⟨env, npages, region.startAddr, hg, ?_, ?_⟩
    · rw [← hr]
    · rw [← hr]
  | @store env addr value sys r hr hin hres hst =>
    obtain ⟨q, hq⟩ := h.slotted r hr
    obtain ⟨t, rfl, ht⟩ := hq.hit_of_resident (h.wf r hr) hin hres
    rw [h.store_eq hr hin hq ht] at hst
    obtain rfl := Option.some.inj hst
    exact .inr (.inl ⟨env, r, addr, value, t, _, hr, hq, rfl, rfl⟩)
  | @fault env addr isWrite sys r hr hin hf =>
    obtain ⟨q, hq⟩ := h.slotted r hr
    rw [h.fault_eq hr hin hq] at hf
    obtain rfl := Option.some.inj hf
    exact .inr (.inr ⟨env, r, addr, isWrite, q, hr, hin, hq, rfl, rfl⟩)

lemma step_watched (h : Watched c.sys c.regions) (hs : Watch.Step c e c') :
    Watched c'.sys c'.regions := by
  obtain ⟨env, npages, a, hg, -, rfl⟩ | ⟨env, r, addr, value, t, d, hr, hq, -, rfl⟩ |
    ⟨env, r, addr, isWrite, q, hr, hin, hq, -, rfl⟩ := watch_step_cases h hs
  · exact h.alloced hg
  · exact h.setPage hr hq d
  · exact h.resolved hr hin hq env isWrite

lemma run_watched (h : Run Watch.Step (Watch.init mem) tr c) : Watched c.sys c.regions :=
  h.invariant (I := fun c => Watched c.sys c.regions) (C := fun _ _ => True)
    (fun _ _ _ hw _ hs => step_watched hw hs) (init_watched mem) (fun _ _ => trivial)

lemma latestFault_snoc (r : Region) (tr : List (Watch × WatchEvent)) (x : Watch × WatchEvent) :
    latestFault r (tr ++ [x]) = match x.2 with
      | .fault _ r' addr isWrite => if r' = r then some (addr, isWrite) else latestFault r tr
      | _ => latestFault r tr := by
  unfold latestFault
  rw [List.foldl_append]
  rfl

/-- The maps hold the page and the operation of every region's latest fault. -/
structure Recorded (tr : List (Watch × WatchEvent)) (c : Watch) : Prop where
  addr : ∀ r ∈ c.regions, c.sys.globals.uffdPrevResolvedAddr.find r.uffd =
    (latestFault r tr).map (fun f => pgRoundDown f.1)
  op : ∀ r ∈ c.regions, c.sys.globals.uffdPrevResolvedOp.find r.uffd =
    (latestFault r tr).map (fun f => opOf f.2)
  registered : ∀ r, latestFault r tr ≠ none → r ∈ c.regions

lemma Recorded.register (h : Recorded tr c) (hw : Watched c.sys c.regions) {env : Env}
    {npages : UInt32} {a : Nat} (hg : Registers env npages a c.sys) :
    Recorded (tr ++ [(c, .register env npages (registeredRegion env npages a c.sys))])
      ⟨alloced env npages a c.sys, c.regions ++ [registeredRegion env npages a c.sys]⟩ := by
  have hsame : ∀ r, latestFault r (tr ++ [(c, .register env npages
      (registeredRegion env npages a c.sys))]) = latestFault r tr := fun r => latestFault_snoc r tr _
  have hnone : latestFault (registeredRegion env npages a c.sys) tr = none := by
    by_contra hc
    have hr := h.registered _ hc
    exact (hw.known.new_beside hg hr (hw.wf _ hr)).uffd rfl
  obtain ⟨-, haddr, hop⟩ := hw.known.uffd_fresh hg
  refine ⟨?_, ?_, ?_⟩
  · intro r hr
    rw [hsame]
    rcases List.mem_append.mp hr with hr | hr
    · exact h.addr r hr
    · obtain rfl := List.mem_singleton.mp hr
      rw [hnone]
      exact haddr
  · intro r hr
    rw [hsame]
    rcases List.mem_append.mp hr with hr | hr
    · exact h.op r hr
    · obtain rfl := List.mem_singleton.mp hr
      rw [hnone]
      exact hop
  · intro r hr
    rw [hsame] at hr
    exact List.mem_append_left _ (h.registered r hr)

lemma Recorded.fault (h : Recorded tr c) (hw : Watched c.sys c.regions) {env : Env} {r : Region}
    {addr : Nat} {isWrite : Bool} {q : Option Slot} (hr : r ∈ c.regions) (hin : r.Contains addr) :
    Recorded (tr ++ [(c, .fault env r addr isWrite)])
      ⟨resolved env r q addr isWrite c.sys, c.regions⟩ := by
  have hg := resolved_globals env c.sys r q addr isWrite
  have hpg := pgRoundDown_eq (hw.wf r hr) hin
  refine ⟨?_, ?_, ?_⟩
  · intro r' hr'
    rw [latestFault_snoc]
    dsimp only
    rw [hg]
    by_cases hrr : r = r'
    · subst hrr
      simp [hpg]
    · have hu : r'.uffd ≠ r.uffd := (hw.beside r hr r' hr' hrr).uffd.symm
      rw [if_neg hrr, ← h.addr r' hr']
      simp [hu]
  · intro r' hr'
    rw [latestFault_snoc]
    dsimp only
    rw [hg]
    by_cases hrr : r = r'
    · subst hrr
      simp
    · have hu : r'.uffd ≠ r.uffd := (hw.beside r hr r' hr' hrr).uffd.symm
      rw [if_neg hrr, ← h.op r' hr']
      simp [hu]
  · intro r' hr'
    rw [latestFault_snoc] at hr'
    by_cases hrr : r = r'
    · exact hrr ▸ hr
    · exact h.registered r' (by simpa [hrr] using hr')

lemma run_recorded (h : Run Watch.Step (Watch.init mem) tr c) : Recorded tr c := by
  induction h with
  | nil => exact ⟨by simp [Watch.init], by simp [Watch.init], by simp [latestFault]⟩
  | @snoc c c' tr e hrun hs ih =>
    have hw := run_watched hrun
    obtain ⟨env, npages, a, hg, rfl, rfl⟩ | ⟨env, r, addr, value, t, d, hr, hq, rfl, rfl⟩ |
      ⟨env, r, addr, isWrite, q, hr, hin, hq, rfl, rfl⟩ := watch_step_cases hw hs
    · exact ih.register hw hg
    · have hsame : ∀ r', latestFault r' (tr ++ [(c, .store env r addr value)]) =
          latestFault r' tr := fun r' => latestFault_snoc r' tr _
      exact ⟨fun r' hr' => by rw [hsame]; exact ih.addr r' hr',
        fun r' hr' => by rw [hsame]; exact ih.op r' hr',
        fun r' hr' => ih.registered r' (by rwa [hsame] at hr')⟩
    · exact ih.fault hw hr hin

end Runs

/-! ### The resident page -/

def Region.Owns (r : Region) (p : Nat) : Prop := ∃ i, i < r.npages.toNat ∧ p = r.page i

/-- After the events `tr`: the resident pages of every region are the one page recorded for it,
and what is recorded is the page and the operation of its latest fault. -/
structure OnePage (tr : List (Watch × WatchEvent)) (c : Watch) : Prop where
  resident : ∀ r ∈ c.regions, ∀ p, (r.Owns p ∧ c.sys.resident p ≠ none) ↔
    c.sys.globals.uffdPrevResolvedAddr.find r.uffd = some (4096 * p)
  keys : ∀ u, c.sys.globals.uffdPrevResolvedAddr.Contains u ↔
    c.sys.globals.uffdPrevResolvedOp.Contains u
  addr : ∀ r ∈ c.regions, c.sys.globals.uffdPrevResolvedAddr.find r.uffd =
    (latestFault r tr).map (fun f => pgRoundDown f.1)
  op : ∀ r ∈ c.regions, c.sys.globals.uffdPrevResolvedOp.find r.uffd =
    (latestFault r tr).map (fun f => opOf f.2)

/-- The next fault, wherever it is raised, is handled and its handler thread goes on: it issues
one `UFFDIO_COPY`, to the page of the fault, and that page is not resident then. -/
def FaultsHandled (c : Watch) : Prop :=
  ∀ r ∈ c.regions, ∀ addr, r.Contains addr → ∀ env isWrite,
    (c.sys.fault env isWrite addr).isSome ∧
      ∃ s src, installs (faultOps env isWrite addr c.sys) = [(s, r.uffd, pgRoundDown addr, src)] ∧
        s.resident (pgRoundDown addr / 4096) = none

section Theorem

variable {s : System} {r : Region}

lemma Slotted.resident_iff {q : Option Slot} (hq : Slotted s r q) (hw : r.WellFormed) (p : Nat) :
    (r.Owns p ∧ s.resident p ≠ none) ↔
      s.globals.uffdPrevResolvedAddr.find r.uffd = some (4096 * p) := by
  rw [hq.addr]
  cases q with
  | none =>
    constructor
    · rintro ⟨⟨i, hi, rfl⟩, hres⟩
      exact absurd (hq.resident i hi) hres
    · simp
  | some t =>
    have hal := hw.aligned
    have haddr : r.startAddr + 4096 * t.page = 4096 * r.page t.page := by
      unfold Region.page
      omega
    simp only [Option.map_some, Option.some_inj, haddr]
    constructor
    · rintro ⟨⟨i, hi, rfl⟩, hres⟩
      rw [hq.resident i hi] at hres
      have hti : t.page = i := by simpa using hres
      rw [hti]
    · intro he
      obtain rfl : r.page t.page = p := by omega
      have hin := hq.inside t rfl
      refine ⟨⟨t.page, hin, rfl⟩, ?_⟩
      rw [hq.resident _ hin]
      simp

lemma beforeInstall_resident (env : Env) (addr : Nat) (byWrite : Bool) (s : System) :
    (beforeInstall env r addr byWrite s).resident = s.resident := by
  cases byWrite <;> rfl

lemma Watched.faultsHandled {c : Watch} (h : Watched c.sys c.regions) : FaultsHandled c := by
  intro r hr addr hin env isWrite
  obtain ⟨q, hq⟩ := h.slotted r hr
  obtain ⟨d, hd⟩ := h.page_of_mem hr
  have hw := h.wf r hr
  refine ⟨by rw [h.fault_eq hr hin hq]; rfl, ?_⟩
  rw [faultOps_eq env h.ready h.unlocked (h.attached r hr) hw hin hd hq isWrite,
    installs_faultEffects, pgRoundDown_eq hw hin, page_start hw]
  refine ⟨_, _, rfl, ?_⟩
  rw [beforeInstall_resident]
  exact evictSlot_resident_own env (slotted_faultTaken hq isWrite) (index_lt hin)

/-- In every run, with any number of registered regions and faults on any of their pages, also on
resident ones: each region has its recorded page resident and no other, the record is that of the
latest fault, and every further fault is handled without copying onto a resident page. -/
theorem one_page_resident {mem : Nat → UInt8} {tr : List (Watch × WatchEvent)} {c : Watch}
    (h : Run Watch.Step (Watch.init mem) tr c) : OnePage tr c ∧ FaultsHandled c := by
  have hw := run_watched h
  have hrec := run_recorded h
  refine ⟨⟨?_, hw.keys, hrec.addr, hrec.op⟩, hw.faultsHandled⟩
  intro r hr p
  obtain ⟨q, hq⟩ := hw.slotted r hr
  exact hq.resident_iff (hw.wf r hr) p

end Theorem

/-- Two faults in a row on the second page of a region, of which only the first finds it absent. -/
theorem one_page_resident_twice :
    ∃ tr c, Run Watch.Step (Watch.init fun _ => 0) tr c ∧
      latestFault firstRegion tr = some (8200, false) ∧
      c.sys.globals.uffdPrevResolvedAddr.find 3 = some 8192 := by
  have hreg : Watch.Step (Watch.init fun _ => 0) (.register firstEnv 2 firstRegion)
      ⟨firstSystem, [firstRegion]⟩ :=
    .register init_grants.registers (alloc_eq ⟨rfl, rfl⟩ init_grants.registers)
      (List.getLast?_concat ..) rfl rfl rfl
  have hrun := Run.single hreg
  have hmem : firstRegion ∈ [firstRegion] := List.mem_singleton.mpr rfl
  have hin : firstRegion.Contains 8200 := by
    constructor <;> decide
  obtain ⟨s₁, hs₁⟩ := Option.isSome_iff_exists.mp
    ((run_watched hrun).faultsHandled firstRegion hmem 8200 hin firstEnv true).1
  have hrun₁ := hrun.snoc (Watch.Step.fault hmem hin hs₁)
  obtain ⟨s₂, hs₂⟩ := Option.isSome_iff_exists.mp
    ((run_watched hrun₁).faultsHandled firstRegion hmem 8200 hin firstEnv false).1
  have hrun₂ := hrun₁.snoc (Watch.Step.fault hmem hin hs₂)
  refine ⟨_, _, hrun₂, rfl, ?_⟩
  exact (one_page_resident hrun₂).1.addr firstRegion hmem

end RemoteMemoryPool.Proofs
