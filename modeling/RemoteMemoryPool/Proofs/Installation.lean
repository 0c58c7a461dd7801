import RemoteMemoryPool.Proofs.Coherence
import RemoteMemoryPool.Proofs.PageOps

/-!
# The page a fault installs

A read fault installs the server's copy of its page. A write fault installs whatever the static
page holds, which is the page that the last read fault of any region fetched.
`installs_right_iff` says exactly when that is the right page.
-/

namespace RemoteMemoryPool.Proofs

open Interaction Transition Paging

def installs (ops : List (System × PageOp)) : List (System × Int × Nat × Buf) :=
  ops.filterMap fun
    | (s, .install uffd dst src) => some (s, uffd, dst, src)
    | _ => none

/-- The access installs one page, the page of its address, and what it copies is the server's copy
of that page at that moment. -/
def InstallsRight (env : Env) (r : Region) (addr : Nat) (byWrite : Bool) (s : System) : Prop :=
  ∃ s' src, installs (accessOps env byWrite addr s) = [(s', r.uffd, pgRoundDown addr, src)] ∧
    s'.bufPage src = some (serverPage s' r (r.index addr))

/-- The page most recently fetched by a read fault, in whatever region. -/
def lastFetched (tr : List (Session × Event)) : Page :=
  ((fetches tr).getLast?.map Prod.snd).getD zeroPage

lemma installs_faultEffects (env : Env) (r : Region) (q : Option Slot) (addr : Nat) (byWrite : Bool)
    (s : System) :
    installs (faultEffects env r q addr byWrite s) =
      [(beforeInstall env r addr byWrite (evictSlot env r q s), r.uffd,
        r.startAddr + 4096 * r.index addr, .staticPage)] := by
  cases q <;> rfl

section Faults

variable (env : Env) {s : System} {allocated regions : List Region} {r : Region} {addr : Nat}

/-- A fault installs the right page exactly when it is a read or the static page is the server's
copy once the previous page has been evicted. -/
lemma Linked.installsRight_iff (h : Linked s allocated regions) (hr : r ∈ regions)
    (hin : r.Contains addr) (hres : s.resident (addr / 4096) = none) {q : Option Slot}
    (hq : Slotted s r q) (byWrite : Bool) :
    InstallsRight env r addr byWrite s ↔
      (byWrite = true → s.page = some (serverPage (evictSlot env r q s) r (r.index addr))) := by
  obtain ⟨hw, -, -, ⟨d, hd⟩, a, hl⟩ := h.obtain hr
  set s₁ := evictSlot env r q (faultTaken r.uffd byWrite addr s)
  have hhost : s₁.host = (evictSlot env r q s).host := evictSlot_faultTaken_host env byWrite
  obtain ⟨hl₁, hd₁⟩ : Live s₁.host.server r.hndl a r.npages ∧ s₁.page = some d :=
    evictSlot_faultTaken_eq env hl hd hq addr byWrite
  obtain ⟨hbuf, hhost₂⟩ := beforeInstall_eq env hl₁ hin hd₁ byWrite
  have hsv : serverPage (beforeInstall env r addr byWrite s₁) r (r.index addr) =
      serverPage (evictSlot env r q s) r (r.index addr) := serverPage_congr (hhost₂.trans hhost) r _
  have hsv₁ : serverPage s₁ r (r.index addr) =
      serverPage (evictSlot env r q s) r (r.index addr) := serverPage_congr hhost r _
  rw [InstallsRight, h.accessOps_miss env hr hin hres hq byWrite, installs_faultEffects,
    pgRoundDown_eq hw hin, hd]
  constructor
  · rintro ⟨s', src, hops, hpage⟩ hbw
    obtain ⟨rfl, rfl⟩ : beforeInstall env r addr byWrite s₁ = s' ∧ Buf.staticPage = src := by
      simpa using hops
    rw [hbuf, hsv, if_pos hbw] at hpage
    exact hpage
  · intro hright
    refine ⟨_, _, rfl, ?_⟩
    rw [hbuf, hsv]
    cases byWrite with
    | false => simp [hsv₁]
    | true => exact hright rfl

end Faults

lemma lastFetched_snoc (tr : List (Session × Event)) (x : Session × Event) :
    lastFetched (tr ++ [x]) = ((fetched x).map Prod.snd).getD (lastFetched tr) := by
  unfold lastFetched fetches
  rw [List.filterMap_append]
  cases hx : fetched x with
  | none => simp [hx]
  | some y => simp [hx]

section Static

variable {c c' : Session} {e : Event} {tr : List (Session × Event)}

lemma step_page (hL : Linked c.sys c.allocated c.regions) (h : Session.Step c e c') :
    c'.sys.page.getD zeroPage =
      ((fetched (c, e)).map Prod.snd).getD (c.sys.page.getD zeroPage) := by
  cases h with
  | alloc hg h hx hh hn hu =>
    obtain ⟨rfl, -⟩ := step_alloc_region hg hL.ready h hx hh hn hu
    rfl
  | @load env addr value sys r hr hin h =>
    obtain ⟨d, hf, -, hF⟩ := hL.load_fetched hr hin h
    rw [fetched_load hL hr hin hf hF]
    cases hF with
    | hit hq ht =>
      rw [if_pos (hL.resident_of_hit hr hin hq ht)]
      rfl
    | @miss q hq hmiss d hd =>
      have hres := (hL.resident_eq_none_iff hr hin hq).mpr hmiss
      obtain ⟨-, -, -, -, a, hl⟩ := hL.obtain hr
      simp [hres, (resolved_eq env hl hin hd hq false).1]
  | @store env addr value sys r hr hin h =>
    obtain ⟨d, s', hF, rfl⟩ := hL.store_fetched hr hin h
    have hpage : s'.page = c.sys.page := by
      cases hF with
      | hit hq ht => rfl
      | @miss q hq hmiss d hd =>
        obtain ⟨-, -, -, -, a, hl⟩ := hL.obtain hr
        rw [(resolved_eq env hl hin hd hq true).1, hd]
        rfl
    exact congrArg (fun p => Option.getD p zeroPage) hpage
  | @unregister env r sys hr h =>
    obtain ⟨-, -, ⟨q, hq⟩, -, -⟩ := hL.obtain hr
    obtain rfl := hL.unregister_slotted hr h hq
    obtain ⟨tids, handlers, he, -, -⟩ := unregistered_eq env c.sys r q
    rw [he]
    exact congrArg (fun p => Option.getD p zeroPage) (evictSlot_page env r q c.sys)

lemma run_page {mem : Nat → UInt8} (h : Run Session.Step (Session.init mem) tr c) :
    c.sys.page.getD zeroPage = lastFetched tr := by
  induction h with
  | nil => rfl
  | @snoc c c' tr e hr hs ih => rw [step_page (run_linked hr) hs, ih, lastFetched_snoc]

end Static

/-- In every state of a run, with regions of fewer than `2 ^ 20` pages: a fault at any address of a
registered region installs the server's current copy of the page of that address exactly when it
is a read fault, or the page most recently fetched by a read fault of any region (a zero page if
there was none) happens to equal it. -/
theorem installs_right_iff {mem : Nat → UInt8} {tr : List (Session × Event)} {c : Session}
    (h : Run Session.Step (Session.init mem) tr c) (hsmall : ∀ x ∈ tr, x.2.Small) {r : Region}
    (hr : r ∈ c.regions) {addr : Nat} (hin : r.Contains addr)
    (hres : c.sys.resident (addr / 4096) = none) (env : Env) (byWrite : Bool) :
    InstallsRight env r addr byWrite c.sys ↔
      (byWrite = false ∨ lastFetched tr = serverPage c.sys r (r.index addr)) := by
  obtain ⟨st, p, ht⟩ := run_tied h hsmall
  have hL := ht.linked
  have hal := hL.sub r hr
  have hq := ht.mirrors.slots r hr
  obtain ⟨-, -, -, ⟨d, hd⟩, -⟩ := hL.obtain hr
  have hmiss := (hL.resident_eq_none_iff hr hin hq).mp hres
  have hhit : ¬p.Hit r.startAddr (r.index addr) := by
    rintro ⟨t, hs, he⟩
    exact hmiss t hs he
  -- evicting another page of the region leaves the server's copy of this one alone
  have hsv : serverPage (evictSlot env r (p.slot r.startAddr) c.sys) r (r.index addr) =
      serverPage c.sys r (r.index addr) := by
    obtain ⟨st', hst'⟩ := ht.mirrors.evictStore env hL hr
    rw [hst'.serverPage hal (index_lt hin), ht.mirrors.store.serverPage hal (index_lt hin)]
    exact Pager.store_evict_of_not_hit p _ _ hhit
  have hlast : lastFetched tr = d := by
    rw [← run_page h, hd, Option.getD_some]
  rw [hL.installsRight_iff env hr hin hres hq byWrite, hsv, hlast, hd, Option.some_inj]
  cases byWrite <;> simp

/-- The first region after a store to its first page, a load of its second page and a load of its
first page: the static page holds the first page. -/
def firstPageFetched : System :=
  loaded firstEnv 4096 (loaded firstEnv 8192 (stored firstEnv 4096 7 firstSystem))

lemma firstPageFetched_run : ∃ tr memory,
    Run Session.Step (Session.init fun _ => 0) tr (firstSession firstPageFetched memory) ∧
      tr.map Prod.snd = [.alloc firstEnv 2 firstRegion, .store firstEnv firstRegion 4096 7,
        .load firstEnv firstRegion 8192 0, .load firstEnv firstRegion 4096 7] := by
  have hv₁ : (firstSystem.store firstEnv 4096 7).isSome = true := by decide +kernel
  have hv₂ : ((stored firstEnv 4096 7 firstSystem).load firstEnv 8192).map Prod.fst = some 0 := by
    decide +kernel
  have hv₃ : ((loaded firstEnv 8192 (stored firstEnv 4096 7 firstSystem)).load
      firstEnv 4096).map Prod.fst = some 7 := by
    decide +kernel
  exact ⟨_, _, ((first_run.snoc (first_store firstRegion_contains.1 hv₁)).snoc
    (first_load firstRegion_contains.2 hv₂)).snoc (first_load firstRegion_contains.1 hv₃), rfl⟩

/-- After the same byte has been stored to the second page, which gets the bytes of the first one,
a store to the first page installs the right page: it is the one fetched last. -/
theorem equal_page_installs_right :
    ∃ tr c, Run Session.Step (Session.init fun _ => 0) tr c ∧ tr.length = 5 ∧
      firstRegion ∈ c.regions ∧ c.sys.resident 1 = none ∧ lastFetched tr 0 = 7 ∧
      InstallsRight firstEnv firstRegion 4096 true c.sys := by
  obtain ⟨tr, memory, hrun, hev⟩ := firstPageFetched_run
  have h := hrun.snoc (first_store firstRegion_contains.2
    (show (firstPageFetched.store firstEnv 8192 7).isSome = true by decide +kernel))
  have hsmall : ∀ x ∈ tr ++ [(firstSession firstPageFetched memory,
      Event.store firstEnv firstRegion 8192 7)], x.2.Small := by
    rw [forall_mem_snoc, ← List.forall_mem_map (P := Event.Small), hev]
    simp [Event.Small]
  have hres : (stored firstEnv 8192 7 firstPageFetched).resident 1 = none :=
    Option.isNone_iff_eq_none.mp (by decide +kernel)
  -- the pager of the run says what the static page and the server's copies are
  obtain ⟨st, ht⟩ := run_pager h hsmall
  rw [List.map_append, hev] at ht
  have hfetched := (run_page h).symm.trans ht.mirrors.buf
  have hserver := ht.mirrors.store.serverPage (r := firstRegion) (List.mem_singleton.mpr rfl)
    (i := 0) (by decide)
  refine ⟨_, _, h, ?_, List.mem_singleton.mpr rfl, hres, ?_,
    (installs_right_iff h hsmall (List.mem_singleton.mpr rfl) firstRegion_contains.1 hres firstEnv
      true).mpr (Or.inr ?_)⟩
  · have hlen := congrArg List.length hev
    rw [List.length_map] at hlen
    rw [List.length_append, hlen]
    rfl
  · rw [hfetched]
    rfl
  · exact hfetched.trans hserver.symm

/-- A store to the second page instead installs the first page. -/
theorem store_installs_other_page :
    ∃ tr c, Run Session.Step (Session.init fun _ => 0) tr c ∧ (∀ x ∈ tr, x.2.Small) ∧
      firstRegion ∈ c.regions ∧ c.sys.resident (8192 / 4096) = none ∧
      ¬InstallsRight firstEnv firstRegion 8192 true c.sys := by
  obtain ⟨tr, memory, h, hev⟩ := firstPageFetched_run
  have hsmall : ∀ x ∈ tr, x.2.Small := by
    rw [← List.forall_mem_map (P := Event.Small), hev]
    simp [Event.Small]
  have hres : (firstPageFetched.resident (8192 / 4096)).isNone = true := by decide +kernel
  have hbytes : (installs (accessOps firstEnv true 8192 firstPageFetched)).map
      (fun x => ((x.1.bufPage x.2.2.2).map (· 0), serverPage x.1 firstRegion 1 0)) =
      [(some 7, 0)] := by
    decide +kernel
  refine ⟨_, _, h, hsmall, List.mem_singleton.mpr rfl, Option.isNone_iff_eq_none.mp hres, ?_⟩
  rintro ⟨s', src, hops, hpage⟩
  change installs (accessOps firstEnv true 8192 firstPageFetched) = _ at hops
  change s'.bufPage src = some (serverPage s' firstRegion 1) at hpage
  rw [hops] at hbytes
  simp only [List.map_cons, List.map_nil, hpage, Option.map_some, List.cons.injEq, Prod.mk.injEq,
    Option.some_inj, and_true] at hbytes
  exact absurd (hbytes.1.symm.trans hbytes.2) (by decide)

end RemoteMemoryPool.Proofs
