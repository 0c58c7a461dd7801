import RemoteMemoryPool.Proofs.Mirror

/-!
# Remote memory as memory

`LoadsLatest` says that a load of any address of a registered region would return the latest
value stored there. `loads_latest_iff` says exactly which accesses keep it so.
`disciplined_loads_latest` covers the programs that either only read a page while it is
resident or store all of it.
-/

namespace RemoteMemoryPool.Proofs

open Interaction Transition Paging

/-- Memory by start address, page and byte. -/
def flat (memory : Nat → UInt8) (a i : Nat) : Page := fun b => memory (a + 4096 * i + b)

def pagesOf (regions : List Region) (a i : Nat) : Prop :=
  ∃ r ∈ regions, r.startAddr = a ∧ i < r.npages.toNat

/-- Whatever address of a registered region is loaded next, the load ends and returns the
latest value stored there, or 0 if there is none. -/
def LoadsLatest (c : Session) : Prop :=
  ∀ r ∈ c.regions, ∀ addr, r.Contains addr → ∀ env,
    ∃ sys, c.sys.load env addr = some (c.memory addr, sys)

/-- The access does not fault; or the page its fault evicts, if a read fault installed it, is
the server's copy, and the static page, if the access is a store, is the server's copy of the
faulting page apart from the byte stored. -/
def SafeAccess (s : System) (r : Region) (addr : Nat) (byWrite : Bool) : Prop :=
  s.resident (addr / 4096) ≠ none ∨
    (∀ i, i < r.npages.toNat → ∀ d, s.resident (r.page i) = some d →
      s.globals.uffdPrevResolvedOp.find r.uffd = some 0 → d = serverPage s r i) ∧
    (byWrite = true → ∀ d, s.page = some d → ∀ b, b ≠ System.byteOf addr →
      d b = serverPage s r (r.index addr) b)

/-- The accesses that keep memory coherent. -/
def Safe (c : Session) : Event → Prop
  | .load _ r addr _ => SafeAccess c.sys r addr false
  | .store _ r addr _ => SafeAccess c.sys r addr true
  | _ => True

/-- Nothing has been stored outside the allocated regions. -/
def Blank (c : Session) : Prop :=
  ∀ addr, (∀ r ∈ c.allocated, ¬r.Contains addr) → c.memory addr = 0

section Addresses

variable {s : System} {allocated regions : List Region} {r r' : Region} {addr : Nat}

lemma byteOf_add (hw : r.WellFormed) (i : Nat) (b : Fin 4096) :
    System.byteOf (r.startAddr + 4096 * i + b) = b := by
  have hal := hw.aligned
  have hb := b.isLt
  apply Fin.ext
  change (r.startAddr + 4096 * i + b) % 4096 = b
  omega

lemma index_add (i : Nat) (b : Fin 4096) : r.index (r.startAddr + 4096 * i + b) = i := by
  have hb := b.isLt
  unfold Region.index
  omega

lemma contains_add {i : Nat} (hi : i < r.npages.toNat) (b : Fin 4096) :
    r.Contains (r.startAddr + 4096 * i + b) := by
  have hb := b.isLt
  constructor <;> omega

lemma addr_eq (hw : r.WellFormed) (hin : r.Contains addr) :
    r.startAddr + 4096 * r.index addr + System.byteOf addr = addr := by
  obtain ⟨h1, h2⟩ := hin
  have hal := hw.aligned
  change r.startAddr + 4096 * r.index addr + addr % 4096 = addr
  unfold Region.index
  omega

lemma Linked.region_unique (h : Linked s allocated regions) (hr : r ∈ allocated)
    (hr' : r' ∈ allocated) (hin : r.Contains addr) (hin' : r'.Contains addr) : r = r' := by
  by_contra hne
  have hrange := (h.apart r hr r' hr' hne).range
  obtain ⟨h1, h2⟩ := hin
  obtain ⟨h3, h4⟩ := hin'
  omega

lemma Linked.onMemory_eq (h : Linked s allocated regions) (hr : r ∈ allocated)
    (hin : r.Contains addr) (memory : Nat → UInt8) (value : UInt8) {a i : Nat}
    (hp : pagesOf allocated a i) :
    (r.access addr (some value)).onMemory (flat memory) a i =
      flat (Function.update memory addr value) a i := by
  obtain ⟨r', hr', rfl, hi⟩ := hp
  have hw := h.wf r hr
  funext b
  have hiff : r'.startAddr + 4096 * i + b = addr ↔
      (r'.startAddr = r.startAddr ∧ i = r.index addr) ∧ b = System.byteOf addr := by
    constructor
    · intro he
      have hin' := contains_add hi b
      rw [he] at hin'
      obtain rfl := h.region_unique hr hr' hin hin'
      rw [← he]
      exact ⟨⟨rfl, (index_add i b).symm⟩, (byteOf_add hw i b).symm⟩
    · rintro ⟨⟨h1, rfl⟩, rfl⟩
      rw [h1, addr_eq hw hin]
  by_cases hpage : r'.startAddr = r.startAddr ∧ i = r.index addr
  · obtain ⟨h1, h2⟩ := hpage
    have hon : (r.access addr (some value)).onMemory (flat memory) r'.startAddr i =
        Function.update (flat memory r'.startAddr i) (System.byteOf addr) value := by
      rw [h1, h2]
      exact Pager.onMemory_page
    rw [hon]
    simp only [Function.update_apply, flat, hiff]
    simp only [h1, h2, and_self, true_and]
  · have hne : r'.startAddr ≠ (r.access addr (some value)).region ∨
        i ≠ (r.access addr (some value)).page := not_and_or.mp hpage
    rw [Pager.onMemory_of_ne hne]
    simp only [Function.update_apply, flat, hiff, hpage, false_and, if_false]

end Addresses

/-! ### Coherence of a session -/

/-- What every run keeps, whatever its accesses are. -/
structure Tied (c : Session) (st : PageStore) (p : RegionPager) : Prop where
  linked : Linked c.sys c.allocated c.regions
  mirrors : Mirrors c.sys c.allocated c.regions st p
  blank : Blank c

section Session

variable {c c' : Session} {st : PageStore} {p : RegionPager} {r : Region} {addr : Nat}

lemma init_tied (mem : Nat → UInt8) : Tied (Session.init mem) (fun _ => none) emptyPager where
  linked := init_linked mem
  mirrors := init_mirrors mem
  blank _ _ := rfl

lemma step_blank {e : Event} (hL : Linked c.sys c.allocated c.regions) (hB : Blank c)
    (h : Session.Step c e c') : Blank c' := by
  cases h with
  | alloc =>
    intro addr hout
    exact hB addr (fun r hr => hout r (List.mem_append_left _ hr))
  | load => exact hB
  | @store env addr value sys r hr hin h =>
    intro x hout
    have hne : x ≠ addr := by
      rintro rfl
      exact hout r (hL.sub r hr) hin
    change Function.update c.memory addr value x = 0
    rw [Function.update_of_ne hne]
    exact hB x hout
  | unregister => exact hB

/-- Every event is matched by the pager. -/
lemma Tied.step {e : Event} (h : Tied c st p) (hs : e.Small) (hstep : Session.Step c e c') :
    (∃ st', Tied c' st' (pagerStep p e)) ∧
      ∀ env r addr value, e = .load env r addr value →
        value = p.view r.startAddr (r.index addr) (System.byteOf addr) := by
  obtain ⟨⟨st', hM⟩, hv⟩ := step_mirrors h.linked h.mirrors hs hstep
  exact ⟨⟨st', step_linked h.linked hstep, hM, step_blank h.linked h.blank hstep⟩, hv⟩

lemma Tied.load_eq (h : Tied c st p) (hr : r ∈ c.regions) (hin : r.Contains addr) (env : Env) :
    ∃ sys, c.sys.load env addr =
      some (p.view r.startAddr (r.index addr) (System.byteOf addr), sys) := by
  obtain ⟨d, s', hf, -⟩ := h.linked.fetched hr hin env false
  have hload : c.sys.load env addr = some (d (System.byteOf addr), s') := by
    simp [System.load, hf]
  obtain ⟨-, hv⟩ := h.mirrors.load h.linked hr hin hload
  exact ⟨s', by rw [hload, hv]⟩

/-- Loads return the latest stored values exactly when the pager is coherent with memory. -/
lemma Tied.loadsLatest_iff (h : Tied c st p) :
    LoadsLatest c ↔ Pager.Coherent (pagesOf c.regions) p (flat c.memory) := by
  constructor
  · rintro hlat a i ⟨r, hr, rfl, hi⟩
    obtain ⟨env⟩ : Nonempty Env := inferInstance
    have hw := h.linked.wf r (h.linked.sub r hr)
    funext b
    have hin := contains_add hi b
    obtain ⟨sys, hsys⟩ := hlat r hr _ hin env
    obtain ⟨sys', hsys'⟩ := h.load_eq hr hin env
    rw [index_add, byteOf_add hw] at hsys'
    exact congrArg Prod.fst (Option.some.inj (hsys'.symm.trans hsys))
  · intro hcoh r hr addr hin env
    obtain ⟨sys, hsys⟩ := h.load_eq hr hin env
    refine ⟨sys, ?_⟩
    rw [hsys, hcoh _ _ ⟨r, hr, rfl, index_lt hin⟩, flat,
      addr_eq (h.linked.wf r (h.linked.sub r hr)) hin]

lemma Tied.slotsIn (h : Tied c st p) : Pager.SlotsIn (pagesOf c.regions) p :=
  fun _ _ hq => h.mirrors.slotsOf.inside hq

/-- The condition on the client and the server is the condition on the pager. -/
lemma Tied.safeAccess_iff (h : Tied c st p) (hr : r ∈ c.regions) (hin : r.Contains addr)
    (value : Option UInt8) :
    SafeAccess c.sys r addr value.isSome ↔ Pager.Clean p (r.access addr value) := by
  have hal := h.linked.sub r hr
  have hw := h.linked.wf r hal
  have hq := h.mirrors.slots r hr
  obtain ⟨-, -, -, ⟨d, hd⟩, -⟩ := h.linked.obtain hr
  have hbuf : d = p.buf := by simpa [hd] using h.mirrors.buf
  have hhit : c.sys.resident (addr / 4096) ≠ none ↔ p.Hit r.startAddr (r.index addr) := by
    rw [page_index hw hin, hq.resident _ (index_lt hin)]
    cases hs : p.slot r.startAddr with
    | none => simp [Pager.Hit, hs]
    | some t => simp [Pager.Hit, hs]
  have hsv : ∀ {i}, i < r.npages.toNat → serverPage c.sys r i = p.store r.startAddr i :=
    fun hi => h.mirrors.store.serverPage hal hi
  have hevict : (∀ i, i < r.npages.toNat → ∀ d, c.sys.resident (r.page i) = some d →
      c.sys.globals.uffdPrevResolvedOp.find r.uffd = some 0 → d = serverPage c.sys r i) ↔
      ∀ q, p.slot r.startAddr = some q → q.byWrite = false →
        q.contents = p.store r.startAddr q.page := by
    constructor
    · intro hsafe q hs hqw
      have hqi := hq.inside q hs
      have hres := hq.resident q.page hqi
      have hop := hq.op
      rw [hs] at hres hop
      rw [← hsv hqi]
      exact hsafe q.page hqi q.contents (by simpa using hres) (by simpa [hqw, opOf] using hop)
    · intro hclean i hi d' hres hop
      rw [hq.resident i hi] at hres
      rw [hq.op] at hop
      cases hs : p.slot r.startAddr with
      | none => simp [hs] at hres
      | some t =>
        rw [hs] at hres hop
        obtain ⟨rfl, rfl⟩ : t.page = i ∧ t.contents = d' := by simpa using hres
        have hqw : t.byWrite = false := by
          cases hb : t.byWrite with
          | false => rfl
          | true => simp [hb, opOf] at hop
        rw [hsv hi]
        exact hclean t hs hqw
  have hopen : (value.isSome = true → ∀ d', c.sys.page = some d' → ∀ b, b ≠ System.byteOf addr →
      d' b = serverPage c.sys r (r.index addr) b) ↔
      ((r.access addr value).isWrite = true → ∀ b, b ≠ (r.access addr value).byte →
        p.buf b = p.store r.startAddr (r.index addr) b) := by
    rw [hsv (index_lt hin), hd, ← hbuf]
    constructor
    · intro hsafe hv b hb
      exact hsafe hv d rfl b hb
    · rintro hclean hv d' hd' b hb
      obtain rfl := Option.some.inj hd'
      exact hclean hv b hb
  unfold SafeAccess Pager.Clean
  rw [hhit, hevict, hopen]
  rfl

lemma coherent_congr {D : Nat → Nat → Prop} {m m' : Nat → Nat → Page}
    (hm : ∀ a i, D a i → m a i = m' a i) : Pager.Coherent D p m ↔ Pager.Coherent D p m' := by
  constructor
  · intro h a i hD
    rw [h a i hD, hm a i hD]
  · intro h a i hD
    rw [h a i hD, hm a i hD]

lemma pagesOf_mono {regions allocated : List Region} (hsub : ∀ r ∈ regions, r ∈ allocated) {a i : Nat}
    (h : pagesOf regions a i) : pagesOf allocated a i := by
  obtain ⟨r, hr, hrest⟩ := h
  exact ⟨r, hsub r hr, hrest⟩

lemma Tied.new_region {env : Env} {npages : UInt32} {a : Nat} (h : Tied c st p)
    (hg : Grants env npages a c.sys) {i : Nat} (hi : i < npages.toNat) :
    p.slot a = none ∧ p.store a i = zeroPage ∧ flat c.memory a i = zeroPage := by
  have hap := h.linked.new_apart hg
  have hstart := h.linked.start_ne_new hg
  refine ⟨h.mirrors.vacant a (fun r hr => hstart r (h.linked.sub r hr)), ?_, ?_⟩
  · rw [h.mirrors.fresh a hstart]
  · funext b
    apply h.blank
    rintro r hr ⟨h1, h2⟩
    have hb := b.isLt
    have hrange := (hap r hr).range
    dsimp only [newRegion] at hrange
    omega

lemma Tied.loadsLatest_step {e : Event} (h : Tied c st p) (hlat : LoadsLatest c) (hs : e.Small)
    (hstep : Session.Step c e c') : LoadsLatest c' ↔ Safe c e := by
  obtain ⟨⟨st', h'⟩, -⟩ := h.step hs hstep
  have hcoh := h.loadsLatest_iff.mp hlat
  rw [h'.loadsLatest_iff]
  cases hstep with
  | @alloc env npages region x sys hg ha hx hh hn hu =>
    refine ⟨fun _ => trivial, fun _ => ?_⟩
    rintro a i ⟨r, hr, rfl, hi⟩
    rcases List.mem_append.mp hr with hr | hr
    · exact hcoh _ _ ⟨r, hr, rfl, hi⟩
    · obtain rfl := List.mem_singleton.mp hr
      obtain ⟨hslot, hstore, hmem⟩ := h.new_region hg (hn ▸ hi)
      have hnohit : ¬p.Hit r.startAddr i := by simp [Pager.Hit, hslot]
      exact (Pager.view_of_not_hit p _ _ hnohit).trans (hstore.trans hmem.symm)
  | @load env addr value sys r hr hin hl =>
    have hD : pagesOf c.regions r.startAddr (r.index addr) := ⟨r, hr, rfl, index_lt hin⟩
    have hiff := Pager.coherent_access_iff (a := r.access addr none) hcoh h.slotsIn hD
    rw [Pager.onMemory_of_load rfl] at hiff
    exact hiff.trans (h.safeAccess_iff hr hin none).symm
  | @store env addr value sys r hr hin hl =>
    have hD : pagesOf c.regions r.startAddr (r.index addr) := ⟨r, hr, rfl, index_lt hin⟩
    have hiff := Pager.coherent_access_iff (a := r.access addr (some value)) hcoh h.slotsIn hD
    rw [coherent_congr (fun a i hai => h.linked.onMemory_eq (h.linked.sub r hr) hin c.memory value
      (pagesOf_mono h.linked.sub hai))] at hiff
    exact hiff.trans (h.safeAccess_iff hr hin (some value)).symm
  | @unregister env r sys hr hu =>
    refine ⟨fun _ => trivial, fun _ => ?_⟩
    rintro a i ⟨r', hr', rfl, hi⟩
    obtain ⟨hr', hne⟩ : r' ∈ c.regions ∧ r' ≠ r := by simpa using List.mem_filter.mp hr'
    have hst : r'.startAddr ≠ r.startAddr := fun he =>
      hne (h.linked.start_inj (h.linked.sub r' hr') (h.linked.sub r hr) he)
    exact (Pager.view_evict_of_ne p _ _ hst).trans (hcoh _ _ ⟨r', hr', rfl, hi⟩)

end Session

lemma step_tied {c c' : Session} {e : Event} (h : ∃ st p, Tied c st p) (hs : e.Small)
    (hstep : Session.Step c e c') : ∃ st p, Tied c' st p := by
  obtain ⟨st, p, ht⟩ := h
  obtain ⟨⟨st', ht'⟩, -⟩ := ht.step hs hstep
  exact ⟨st', _, ht'⟩

/-- Every run is matched by a run of the pager. -/
lemma run_pager {mem : Nat → UInt8} {tr : List (Session × Event)} {c : Session}
    (h : Run Session.Step (Session.init mem) tr c) (hsmall : ∀ x ∈ tr, x.2.Small) :
    ∃ st, Tied c st ((tr.map Prod.snd).foldl pagerStep emptyPager) := by
  induction h with
  | nil => exact ⟨_, init_tied mem⟩
  | @snoc c c' tr e hr hs ih =>
    rw [forall_mem_snoc] at hsmall
    obtain ⟨st, ht⟩ := ih hsmall.1
    rw [List.map_append, List.map_singleton, List.foldl_concat]
    exact (ht.step hsmall.2 hs).1

lemma run_tied {mem : Nat → UInt8} {tr : List (Session × Event)} {c : Session}
    (h : Run Session.Step (Session.init mem) tr c) (hsmall : ∀ x ∈ tr, x.2.Small) :
    ∃ st p, Tied c st p := by
  obtain ⟨st, ht⟩ := run_pager h hsmall
  exact ⟨st, _, ht⟩

/-- In every run of one application thread against a server, with any number of regions of fewer
than `2 ^ 20` pages: every load that could be issued in any state of the run returns the latest
value stored at its address (0 if there is none) exactly when every access of the run is safe;
in particular the loads of the run itself then do. -/
theorem loads_latest_iff {mem : Nat → UInt8} {tr : List (Session × Event)} {c : Session}
    (h : Run Session.Step (Session.init mem) tr c) (hsmall : ∀ x ∈ tr, x.2.Small) :
    (((∀ x ∈ tr, LoadsLatest x.1) ∧ LoadsLatest c) ↔ ∀ x ∈ tr, Safe x.1 x.2) ∧
      ((∀ x ∈ tr, Safe x.1 x.2) → ∀ x ∈ tr, ∀ env r addr value,
        x.2 = .load env r addr value → value = x.1.memory addr) := by
  have hiff : ((∀ x ∈ tr, LoadsLatest x.1) ∧ LoadsLatest c) ↔ ∀ x ∈ tr, Safe x.1 x.2 := by
    apply h.states_iff (I := fun c => ∃ st p, Tied c st p) (Q := fun _ e => e.Small)
    · intro c e c' hI hs hstep
      exact step_tied hI hs hstep
    · rintro c e c' ⟨st, p, ht⟩ hlat hs hstep
      exact ht.loadsLatest_step hlat hs hstep
    · exact ⟨_, _, init_tied mem⟩
    · simp [LoadsLatest, Session.init]
    · exact hsmall
  refine ⟨hiff, ?_⟩
  intro hsafe x hx env r addr value he
  have hlat := (hiff.mpr hsafe).1 x hx
  obtain ⟨tr', c', -, -, hstep⟩ := h.reached x hx
  rw [he] at hstep
  cases hstep with
  | load hr hin hl =>
    obtain ⟨sys, hsys⟩ := hlat r hr addr hin env
    exact congrArg Prod.fst (Option.some.inj (hl.symm.trans hsys))

/-- A store that opens the first page of a new region is safe, and so are loads of this page and of
the other one. -/
theorem first_store_loads_latest :
    ∃ tr c, Run Session.Step (Session.init fun _ => 0) tr c ∧ tr.length = 4 ∧
      c.memory 4096 = 7 ∧ c.sys.resident 1 = none ∧ LoadsLatest c := by
  have hs₁ : (firstSystem.store firstEnv 4096 7).isSome = true := rfl
  have hv₂ : ((stored firstEnv 4096 7 firstSystem).load firstEnv 4096).map Prod.fst = some 7 := by
    decide +kernel
  have hv₃ : ((loaded firstEnv 4096 (stored firstEnv 4096 7 firstSystem)).load
      firstEnv 8192).map Prod.fst = some 0 := by
    decide +kernel
  have h := ((first_run.snoc (first_store firstRegion_contains.1 hs₁)).snoc
    (first_load firstRegion_contains.1 hv₂)).snoc (first_load firstRegion_contains.2 hv₃)
  have hsafe₁ : SafeAccess firstSystem firstRegion 4096 true := by
    refine Or.inr ⟨?_, ?_⟩
    · intro i hi d hd
      exact absurd hd (by simp [firstSystem, alloced, exchange, System.init])
    · intro _ d hd b _
      obtain rfl : zeroPage = d := by simpa [firstSystem, alloced, System.init] using hd
      symm
      change (if _ then (0 : UInt8) else 0) = 0
      split <;> rfl
  have hsafe₂ : SafeAccess (stored firstEnv 4096 7 firstSystem) firstRegion 4096 false :=
    Or.inl (Option.isSome_iff_ne_none.mp (by decide +kernel))
  have hsafe₃ : SafeAccess (loaded firstEnv 4096 (stored firstEnv 4096 7 firstSystem)) firstRegion
      8192 false := by
    refine Or.inr ⟨fun i _ d _ hop => ?_, fun hw => by cases hw⟩
    exact absurd hop (by decide +kernel)
  refine ⟨_, _, h, rfl, rfl, Option.isNone_iff_eq_none.mp (by decide +kernel),
    ((loads_latest_iff h ?_).1.mpr ?_).2⟩
  · simp [Event.Small]
  · simp only [forall_mem_snoc, List.forall_mem_singleton]
    exact ⟨⟨⟨trivial, hsafe₁⟩, hsafe₂⟩, hsafe₃⟩

/-- A store to a page that a load made resident is lost: the page is dropped by the next fault of
the region. -/
theorem store_after_load_lost :
    ∃ tr c c', Run Session.Step (Session.init fun _ => 0) tr c ∧ (∀ x ∈ tr, x.2.Small) ∧
      c.memory 4096 = 7 ∧ Session.Step c (.load firstEnv firstRegion 4096 0) c' := by
  have hv₁ : (firstSystem.load firstEnv 4096).map Prod.fst = some 0 := by decide +kernel
  have hv₂ : ((loaded firstEnv 4096 firstSystem).store firstEnv 4096 7).isSome = true := by
    decide +kernel
  have hv₃ : ((stored firstEnv 4096 7 (loaded firstEnv 4096 firstSystem)).load
      firstEnv 8192).map Prod.fst = some 0 := by
    decide +kernel
  have hv₄ : ((loaded firstEnv 8192 (stored firstEnv 4096 7
      (loaded firstEnv 4096 firstSystem))).load firstEnv 4096).map Prod.fst = some 0 := by
    decide +kernel
  have h := ((first_run.snoc (first_load firstRegion_contains.1 hv₁)).snoc
    (first_store firstRegion_contains.1 hv₂)).snoc (first_load firstRegion_contains.2 hv₃)
  refine ⟨_, _, _, h, ?_, rfl, first_load firstRegion_contains.1 hv₄⟩
  simp [Event.Small]

/-! ### Disciplined programs -/

abbrev RegionResidency := Residency Nat (Fin 4096)

/-- The residencies in progress after an event. A residency lasts from the access that opens it
to the next access to another page of the region, or to the unregistration of the region. -/
def trackEvent (ρ : Nat → Option RegionResidency) : Event → Nat → Option RegionResidency
  | .alloc _ _ _ => ρ
  | .load _ r addr _ => Residency.track ρ (r.access addr none)
  | .store _ r addr value => Residency.track ρ (r.access addr (some value))
  | .unregister _ r => Function.update ρ r.startAddr none

/-- The residencies in progress after the given events. -/
def residencies (events : List Event) : Nat → Option RegionResidency :=
  events.foldl trackEvent (fun _ => none)

/-- A residency opened by a load has no store; one opened by a store loads only bytes already
stored in it and has stored every byte when it ends. -/
def Obeys (ρ : Nat → Option RegionResidency) : Event → Prop
  | .alloc _ _ _ => True
  | .load _ r addr _ => ∀ t, ρ r.startAddr = some t → t.Allows (r.access addr none)
  | .store _ r addr value => ∀ t, ρ r.startAddr = some t → t.Allows (r.access addr (some value))
  | .unregister _ r => ∀ t, ρ r.startAddr = some t → t.Complete

/-- Every event obeys the discipline, given the events before it. -/
def Disciplined (events : List Event) : Prop :=
  ∀ before e, before ++ [e] <+: events → Obeys (residencies before) e

lemma residencies_concat (events : List Event) (e : Event) :
    residencies (events ++ [e]) = trackEvent (residencies events) e := by
  simp [residencies]

lemma residencies_snoc (tr : List (Session × Event)) (c : Session) (e : Event) :
    residencies ((tr ++ [(c, e)]).map Prod.snd) = trackEvent (residencies (tr.map Prod.snd)) e := by
  rw [List.map_append]
  exact residencies_concat _ e

lemma disciplined_concat {events : List Event} {e : Event} :
    Disciplined (events ++ [e]) ↔ Disciplined events ∧ Obeys (residencies events) e :=
  forall_prefix_snoc

section Discipline

variable {c c' : Session} {st : PageStore} {p : RegionPager} {ρ : Nat → Option RegionResidency}

abbrev SettledOn (c : Session) (p : RegionPager) (ρ : Nat → Option RegionResidency) : Prop :=
  Pager.Settled (pagesOf c.allocated) p ρ (flat c.memory)

/-- An event that obeys the discipline keeps the pager settled. -/
lemma Tied.settled_step {e : Event} (h : Tied c st p) (hset : SettledOn c p ρ) (hobey : Obeys ρ e)
    (hstep : Session.Step c e c') : SettledOn c' (pagerStep p e) (trackEvent ρ e) := by
  have hslots : Pager.SlotsIn (pagesOf c.allocated) p :=
    fun a q hq => pagesOf_mono h.linked.sub (h.slotsIn a q hq)
  cases hstep with
  | @alloc env npages region x sys hg ha hx hh hn hu =>
    refine ⟨hset.slots, ?_, hset.loaded, hset.stored⟩
    rintro a i ⟨r, hr, rfl, hi⟩ hhit
    rcases List.mem_append.mp hr with hr | hr
    · exact hset.absent _ _ ⟨r, hr, rfl, hi⟩ hhit
    · obtain rfl := List.mem_singleton.mp hr
      obtain ⟨-, hstore, hmem⟩ := h.new_region hg (hn ▸ hi)
      exact hstore.trans hmem.symm
  | @load env addr value sys r hr hin hl =>
    have hD : pagesOf c.allocated r.startAddr (r.index addr) :=
      ⟨r, h.linked.sub r hr, rfl, index_lt hin⟩
    have hacc := hset.access (a := r.access addr none) hD hobey
    rwa [Pager.onMemory_of_load rfl] at hacc
  | @store env addr value sys r hr hin hl =>
    have hD : pagesOf c.allocated r.startAddr (r.index addr) :=
      ⟨r, h.linked.sub r hr, rfl, index_lt hin⟩
    have hacc := hset.access (a := r.access addr (some value)) hD hobey
    exact hacc.congr (hslots.access hD)
      (fun a i hai => h.linked.onMemory_eq (h.linked.sub r hr) hin c.memory value hai)
  | unregister hr hu => exact hset.evict hobey

lemma Tied.load_latest {env : Env} {r : Region} {addr : Nat} {value : UInt8} (h : Tied c st p)
    (hset : SettledOn c p ρ) (hobey : Obeys ρ (.load env r addr value))
    (hstep : Session.Step c (.load env r addr value) c') : value = c.memory addr := by
  have hv := (h.step (by exact trivial) hstep).2 env r addr value rfl
  cases hstep with
  | load hr hin hl =>
    have hD : pagesOf c.allocated r.startAddr (r.index addr) :=
      ⟨r, h.linked.sub r hr, rfl, index_lt hin⟩
    have hview := hset.view_of_load (a := r.access addr none) hD hobey rfl
    rw [hv]
    refine hview.trans ?_
    change c.memory (r.startAddr + 4096 * r.index addr + System.byteOf addr) = _
    rw [addr_eq (h.linked.wf r (h.linked.sub r hr)) hin]

lemma Tied.server_saved {r : Region} (h : Tied c st p) (hset : SettledOn c p ρ) (hr : r ∈ c.allocated)
    (hout : r ∉ c.regions) {i : Nat} (hi : i < r.npages.toNat) :
    serverPage c.sys r i = flat c.memory r.startAddr i := by
  have hvac : p.slot r.startAddr = none := by
    apply h.mirrors.vacant
    intro r' hr' he
    exact hout (h.linked.start_inj (h.linked.sub r' hr') hr he ▸ hr')
  rw [h.mirrors.store.serverPage hr hi]
  exact hset.absent _ _ ⟨r, hr, rfl, hi⟩ (by simp [Pager.Hit, hvac])

end Discipline

/-- In every run in which each residency either was opened by a load and has no store, or was
opened by a store and stores every byte of the page, each before it is loaded: every load
returns the latest value stored at its address (0 if there is none), the server's pages of
every region that has been unregistered are the program's, and every access completes. -/
theorem disciplined_loads_latest {mem : Nat → UInt8} {tr : List (Session × Event)} {c : Session}
    (h : Run Session.Step (Session.init mem) tr c) (hsmall : ∀ x ∈ tr, x.2.Small)
    (hd : Disciplined (tr.map Prod.snd)) :
    (∀ x ∈ tr, ∀ env r addr value, x.2 = .load env r addr value → value = x.1.memory addr) ∧
      (∀ r ∈ c.allocated, r ∉ c.regions → ∀ i, i < r.npages.toNat → ∀ b : Fin 4096,
        serverPage c.sys r i b = c.memory (r.startAddr + 4096 * i + b)) ∧
      Completes c := by
  have hmain : (∀ x ∈ tr, ∀ env r addr value, x.2 = .load env r addr value →
      value = x.1.memory addr) ∧
      ∃ st p, Tied c st p ∧ SettledOn c p (residencies (tr.map Prod.snd)) := by
    induction h with
    | nil =>
      refine ⟨by simp, _, _, init_tied mem, ?_⟩
      constructor <;> simp [pagesOf, Session.init, emptyPager, residencies]
    | @snoc c c' tr e hr hs ih =>
      rw [List.map_append] at hd
      obtain ⟨hd, hobey⟩ := disciplined_concat.mp hd
      obtain ⟨hloads, st, p, ht, hset⟩ := ih (fun x hx => hsmall x (List.mem_append_left _ hx)) hd
      have he : e.Small := hsmall (c, e) (by simp)
      obtain ⟨⟨st', ht'⟩, -⟩ := ht.step he hs
      refine ⟨?_, st', _, ht', ?_⟩
      · intro x hx env r addr value hxe
        rcases List.mem_append.mp hx with hx | hx
        · exact hloads x hx env r addr value hxe
        · obtain rfl := List.mem_singleton.mp hx
          obtain rfl : e = .load env r addr value := hxe
          exact ht.load_latest hset hobey hs
      · rw [residencies_snoc]
        exact ht.settled_step hset hobey hs
  obtain ⟨hloads, st, p, ht, hset⟩ := hmain
  refine ⟨hloads, ?_, ht.linked.completes⟩
  intro r hr hout i hi b
  rw [ht.server_saved hset hr hout hi, flat]

/-! ### Storing a region in order -/

/-- The residency in progress when the first `n` bytes of a region have been stored in order. -/
def filling : Nat → Option RegionResidency
  | 0 => none
  | n + 1 => some ⟨n / 4096, true, fun b => decide (b.val ≤ n % 4096)⟩

section Residencies

variable {r : Region} {t : RegionResidency} {n : Nat}

lemma index_offset (r : Region) (n : Nat) : r.index (r.startAddr + n) = n / 4096 := by
  unfold Region.index
  omega

lemma byteOf_offset (hw : r.WellFormed) (n : Nat) :
    (System.byteOf (r.startAddr + n)).val = n % 4096 := by
  have hal := hw.aligned
  change (r.startAddr + n) % 4096 = n % 4096
  omega

lemma filling_allows (ht : filling n = some t) (value : UInt8) :
    t.Allows (r.access (r.startAddr + n) (some value)) := by
  cases n with
  | zero => simp [filling] at ht
  | succ n =>
    obtain rfl : _ = t := Option.some.inj ht
    unfold Residency.Allows Region.access
    dsimp only
    rw [index_offset]
    split
    · rfl
    · intro _ b
      have hb := b.isLt
      simp only [decide_eq_true_eq]
      omega

lemma opened_filling (hw : r.WellFormed) (hn : n % 4096 = 0) (value : UInt8) :
    some (Residency.opened (r.access (r.startAddr + n) (some value))) = filling (n + 1) := by
  unfold Residency.opened Region.access
  dsimp only [filling]
  rw [index_offset]
  apply congrArg some
  apply congrArg (Residency.mk (n / 4096) true)
  funext b
  have hiff : b = System.byteOf (r.startAddr + n) ↔ b.val ≤ n % 4096 := by
    rw [Fin.ext_iff, byteOf_offset hw]
    omega
  rw [Access.isWrite, Option.isSome_some, Bool.true_and]
  exact decide_eq_decide.mpr hiff

lemma filling_tracked (hw : r.WellFormed) {ρ : Nat → Option RegionResidency}
    (hρ : ρ r.startAddr = filling n) (value : UInt8) :
    Residency.track ρ (r.access (r.startAddr + n) (some value)) r.startAddr = filling (n + 1) := by
  cases n with
  | zero =>
    rw [← opened_filling hw rfl value]
    exact Residency.track_of_none (a := r.access (r.startAddr + 0) (some value)) hρ
  | succ n =>
    have hafter : Residency.track ρ (r.access (r.startAddr + (n + 1)) (some value))
        r.startAddr = _ :=
      Residency.track_of_some (a := r.access (r.startAddr + (n + 1)) (some value)) hρ
    rw [hafter]
    unfold Residency.after
    by_cases hpage : n / 4096 = (n + 1) / 4096
    · have hsame : n / 4096 = (r.access (r.startAddr + (n + 1)) (some value)).page := by
        rw [hpage]
        exact (index_offset r _).symm
      rw [if_pos hsame]
      dsimp only [filling]
      rw [← hpage]
      apply congrArg some
      apply congrArg (Residency.mk (n / 4096) true)
      funext b
      have hiff : b.val ≤ n % 4096 ∨ b = System.byteOf (r.startAddr + (n + 1)) ↔
          b.val ≤ (n + 1) % 4096 := by
        rw [Fin.ext_iff, byteOf_offset hw]
        omega
      rw [Bool.eq_iff_iff, Bool.or_eq_true, Bool.and_eq_true, decide_eq_true_iff,
        decide_eq_true_iff, decide_eq_true_iff, ← hiff]
      exact or_congr_right ⟨And.right, fun hb => ⟨rfl, hb⟩⟩
    · have hother : ¬n / 4096 = (r.access (r.startAddr + (n + 1)) (some value)).page := by
        intro he
        exact hpage (he.trans (index_offset r _))
      rw [if_neg hother]
      exact opened_filling hw (by omega) value

lemma filling_complete (hn : n % 4096 = 0) (ht : filling n = some t) : t.Complete := by
  cases n with
  | zero => simp [filling] at ht
  | succ n =>
    obtain rfl : _ = t := Option.some.inj ht
    intro _ b
    have hb := b.isLt
    simp only [decide_eq_true_eq]
    omega

lemma complete_allows (ht : t.Complete) (addr : Nat) : t.Allows (r.access addr none) := by
  unfold Residency.Allows
  split
  · exact fun hw => ht hw _
  · exact ht

lemma complete_tracked {ρ : Nat → Option RegionResidency}
    (hρ : ∀ t, ρ r.startAddr = some t → t.Complete) (addr : Nat) :
    ∀ t, Residency.track ρ (r.access addr none) r.startAddr = some t → t.Complete := by
  intro t ht
  cases hold : ρ r.startAddr with
  | none =>
    have hopen : Residency.track ρ (r.access addr none) r.startAddr = _ :=
      Residency.track_of_none (a := r.access addr none) hold
    obtain rfl := Option.some.inj (hopen.symm.trans ht)
    simp [Residency.opened, Residency.Complete, Access.isWrite, Region.access]
  | some u =>
    have hafter : Residency.track ρ (r.access addr none) r.startAddr = _ :=
      Residency.track_of_some (a := r.access addr none) hold
    obtain rfl := Option.some.inj (hafter.symm.trans ht)
    have hu := hρ u hold
    unfold Residency.after
    split
    · intro hw b
      simp [hu hw b]
    · simp [Residency.opened, Residency.Complete, Access.isWrite, Region.access]

lemma update_filled {memory : Nat → UInt8} {start : Nat} {data : Nat → UInt8}
    (h : ∀ j, j < n → memory (start + j) = data j) :
    ∀ j, j < n + 1 → Function.update memory (start + n) (data n) (start + j) = data j := by
  intro j hj
  by_cases hjn : j = n
  · subst hjn
    exact Function.update_self _ _ _
  · have hne : start + j ≠ start + n := by omega
    exact (Function.update_of_ne hne _ _).trans (h j (by omega))

end Residencies

/-- A run that has kept to the discipline. -/
structure DisciplinedRun (mem : Nat → UInt8) (tr : List (Session × Event)) (c : Session) : Prop where
  run : Run Session.Step (Session.init mem) tr c
  small : ∀ x ∈ tr, x.2.Small
  disciplined : Disciplined (tr.map Prod.snd)

section DisciplinedRuns

variable {mem : Nat → UInt8} {tr : List (Session × Event)} {c c' : Session} {r : Region} {e : Event}

lemma DisciplinedRun.snoc (h : DisciplinedRun mem tr c) (hs : e.Small)
    (hobey : Obeys (residencies (tr.map Prod.snd)) e) (hstep : Session.Step c e c') :
    DisciplinedRun mem (tr ++ [(c, e)]) c' where
  run := h.run.snoc hstep
  small := forall_mem_snoc.mpr ⟨h.small, hs⟩
  disciplined := by
    rw [List.map_append]
    exact disciplined_concat.mpr ⟨h.disciplined, hobey⟩

/-- The run after the first `n` bytes of a region have been stored in order. -/
structure Stored (mem : Nat → UInt8) (rs : List Region) (r : Region) (data : Nat → UInt8)
    (n : Nat) (tr : List (Session × Event)) (c : Session) : Prop where
  kept : DisciplinedRun mem tr c
  registered : c.regions = rs
  allocated : c.allocated = rs
  memory : ∀ j, j < n → c.memory (r.startAddr + j) = data j
  residency : residencies (tr.map Prod.snd) r.startAddr = filling n

lemma Stored.store {data : Nat → UInt8} {rs : List Region} {n : Nat}
    (h : Stored mem rs r data n tr c) (hr : r ∈ rs) (hn : n < 4096 * r.npages.toNat)
    (env : Env) :
    ∃ c', Session.Step c (.store env r (r.startAddr + n) (data n)) c' ∧
      Stored mem rs r data (n + 1)
        (tr ++ [(c, .store env r (r.startAddr + n) (data n))]) c' := by
  have hr' : r ∈ c.regions := h.registered.symm ▸ hr
  have hlinked := run_linked h.kept.run
  have hin : r.Contains (r.startAddr + n) := by
    constructor <;> omega
  obtain ⟨sys, hsys⟩ := Option.isSome_iff_exists.mp
    (((hlinked.completes r hr' env).2 _ hin).2 (data n))
  have hstep := Session.Step.store hr' hin hsys
  refine ⟨_, hstep, h.kept.snoc trivial ?_ hstep, h.registered, h.allocated, update_filled h.memory, ?_⟩
  · exact fun t ht => filling_allows (h.residency ▸ ht) (data n)
  · rw [residencies_snoc]
    exact filling_tracked (hlinked.wf r (hlinked.sub r hr')) h.residency (data n)

lemma DisciplinedRun.load (h : DisciplinedRun mem tr c) (hr : r ∈ c.regions) {addr : Nat}
    (hin : r.Contains addr) (env : Env)
    (hcomplete : ∀ t, residencies (tr.map Prod.snd) r.startAddr = some t → t.Complete) :
    ∃ value c', DisciplinedRun mem (tr ++ [(c, .load env r addr value)]) c' ∧
      (c'.allocated = c.allocated ∧ c'.regions = c.regions ∧ c'.memory = c.memory) ∧
      ∀ t, residencies ((tr ++ [(c, Event.load env r addr value)]).map Prod.snd) r.startAddr = some t →
        t.Complete := by
  obtain ⟨⟨value, sys⟩, hsys⟩ := Option.isSome_iff_exists.mp
    (((run_linked h.run).completes r hr env).2 addr hin).1
  have hstep := Session.Step.load hr hin hsys
  refine ⟨value, _, h.snoc trivial ?_ hstep, ⟨rfl, rfl, rfl⟩, ?_⟩
  · exact fun t ht => complete_allows (hcomplete t ht) addr
  · rw [residencies_snoc]
    exact complete_tracked hcomplete addr

lemma DisciplinedRun.unregister (h : DisciplinedRun mem tr c) (hr : r ∈ c.regions) (env : Env)
    (hcomplete : ∀ t, residencies (tr.map Prod.snd) r.startAddr = some t → t.Complete) :
    ∃ c', DisciplinedRun mem (tr ++ [(c, .unregister env r)]) c' ∧
      c'.allocated = c.allocated ∧ c'.regions = c.regions.filter (fun r' => r' ≠ r) ∧
      c'.memory = c.memory := by
  obtain ⟨sys, hsys⟩ := Option.isSome_iff_exists.mp ((run_linked h.run).completes r hr env).1
  exact ⟨_, h.snoc trivial hcomplete (Session.Step.unregister hr hsys), rfl, rfl, rfl⟩

end DisciplinedRuns

lemma disciplined_alloc : Disciplined ([] ++ [.alloc firstEnv 2 firstRegion]) :=
  disciplined_concat.mpr ⟨fun before e hp => by simp at hp, trivial⟩

/-- A page is stored whole, another one is loaded, then a byte of the first one; the server has what
was stored when the region is unregistered. -/
theorem first_page_disciplined :
    ∃ tr c, Run Session.Step (Session.init fun _ => 0) tr c ∧ tr.length = 4100 ∧
      c.allocated = [firstRegion] ∧ c.regions = [] ∧
      (∃ u, (u, Event.load firstEnv firstRegion 4096 7) ∈ tr) ∧
      ∀ b : Fin 4096, serverPage c.sys firstRegion 0 b = 7 := by
  have hmem : firstRegion ∈ [firstRegion] := List.mem_singleton.mpr rfl
  have h₀ : Stored (fun _ => 0) [firstRegion] firstRegion (fun _ => 7) 0
      [(Session.init fun _ => 0, .alloc firstEnv 2 firstRegion)] (firstSession firstSystem fun _ => 0) :=
    ⟨⟨first_run, by simp [Event.Small], disciplined_alloc⟩, rfl, rfl, by simp, rfl⟩
  obtain ⟨tr, c₁, -, hev, h₁⟩ := Run.loop (N := 4096)
    (e := fun j => .store firstEnv firstRegion (firstRegion.startAddr + j) 7)
    (fun j _ _ hj hI => hI.store hmem (by change j < 4096 * 2; omega) firstEnv) h₀
  have hlen : tr.length = 4096 := by
    have h := congrArg List.length hev
    rwa [List.length_map, List.length_map, List.length_range] at h
  obtain ⟨v, c₂, h₂, ⟨hall₂, hreg₂, hmem₂⟩, hcomplete₂⟩ := h₁.kept.load (h₁.registered ▸ hmem)
    firstRegion_contains.2 firstEnv
    (fun t ht => filling_complete (n := 4096) rfl (h₁.residency.symm.trans ht))
  have hr₂ : firstRegion ∈ c₂.regions := by
    rw [hreg₂, h₁.registered]
    exact hmem
  obtain ⟨v', c₃, h₃, ⟨hall₃, hreg₃, hmem₃⟩, hcomplete₃⟩ := h₂.load hr₂ firstRegion_contains.1
    firstEnv hcomplete₂
  obtain ⟨c, h, hall, hreg, hmem'⟩ := h₃.unregister (hreg₃ ▸ hr₂) firstEnv hcomplete₃
  have hout : c.regions = [] := by
    rw [hreg, hreg₃, hreg₂, h₁.registered]
    rfl
  have hin : firstRegion ∈ c.allocated := by
    rw [hall, hall₃, hall₂, h₁.allocated]
    exact hmem
  obtain ⟨hloads, hserver, -⟩ := disciplined_loads_latest h.run h.small h.disciplined
  have hv : v' = 7 := by
    have hlast := hloads (c₂, .load firstEnv firstRegion 4096 v') (by simp) firstEnv firstRegion
      4096 v' rfl
    exact hlast.trans ((congrFun hmem₂ 4096).trans (h₁.memory 0 (by decide)))
  refine ⟨_, c, h.run, by simp [hlen], ?_, hout, ⟨c₂, by simp [hv]⟩, fun b => ?_⟩
  · rw [hall, hall₃, hall₂, h₁.allocated]
  · have hb := hserver firstRegion hin (hout ▸ List.not_mem_nil) 0 (by decide) b
    rw [hb, hmem', hmem₃, hmem₂]
    exact h₁.memory b b.isLt

end RemoteMemoryPool.Proofs
