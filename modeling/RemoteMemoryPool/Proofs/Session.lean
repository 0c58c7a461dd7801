import RemoteMemoryPool.Lib.Runs
import RemoteMemoryPool.Proofs.ClientSpec
import Mathlib.Data.List.Perm.Subperm

/-!
# Runs of one client against one server

A session is a system together with the regions allocated and registered so far and the
memory the program believes to have. `Linked` is the invariant that ties the client's maps,
the kernel's tables and the server's maps together; `run_linked` says that every run keeps it,
and `Linked.completes` that every access to a region comes to an end.
-/

namespace RemoteMemoryPool.Proofs

open Interaction Transition

/-! ### The server side of a fault -/

/-- The server's copy of page `i` of a region. -/
def serverPage (s : System) (r : Region) (i : Nat) : Page :=
  s.host.space.memcpyFrom
    (Server.addrWithOffset (s.host.server.addrMap.index 0 r.hndl) 4096 (UInt32.ofNat i))

lemma serverPage_congr {s s' : System} (h : s'.host = s.host) (r : Region) (i : Nat) :
    serverPage s' r i = serverPage s r i := by
  unfold serverPage
  rw [h]

section Server

variable (env : Env) {s : System} {r : Region} {a : Nat}

lemma toNat_ofNat_lt {n : UInt32} {i : Nat} (hi : i < n.toNat) : (UInt32.ofNat i).toNat = i := by
  have := n.toNat_lt
  rw [UInt32.toNat_ofNat']
  exact Nat.mod_eq_of_lt (by omega)

lemma ofNat_lt {n : UInt32} {i : Nat} (hi : i < n.toNat) : UInt32.ofNat i < n := by
  rw [UInt32.lt_iff_toNat_lt, toNat_ofNat_lt hi]
  exact hi

lemma handle_writeRequest (hl : Live s.host.server r.hndl a r.npages) {i : Nat}
    (hi : i < r.npages.toNat) (d : Page) :
    s.host.handle env.serverOs (writeRequest env s r.hndl i d) =
      (writeRequest env s r.hndl i d,
        { s.host with
          space := s.host.space.memcpyTo (Server.addrWithOffset a 4096 (UInt32.ofNat i)) d }) :=
  handle_write_live env.serverOs s.host (writeRequest env s r.hndl i d) rfl hl (ofNat_lt hi)

lemma handle_readRequest (hl : Live s.host.server r.hndl a r.npages) {i : Nat}
    (hi : i < r.npages.toNat) :
    s.host.handle env.serverOs (readRequest env s r.hndl i) =
      ({ readRequest env s r.hndl i with data := serverPage s r i }, s.host) := by
  rw [handle_read_live env.serverOs s.host (readRequest env s r.hndl i) rfl hl (ofNat_lt hi),
    serverPage, UnorderedMap.index_of_find_some _ _ hl.1]
  rfl

lemma evictSlot_server (hl : Live s.host.server r.hndl a r.npages) {q : Option Slot}
    (hq : ∀ t, q = some t → t.page < r.npages.toNat) :
    (evictSlot env r q s).host.server = s.host.server := by
  cases q with
  | none => rfl
  | some t =>
    unfold evictSlot
    dsimp only
    split
    · simp only [exchange, handle_writeRequest env hl (hq t rfl)]
    · rfl

/-- What opening a page does: the page is read from the server for a load, and the static
page stays as it is for a store. -/
lemma openSlot_eq (hl : Live s.host.server r.hndl a r.npages) {addr : Nat} (hin : r.Contains addr)
    {d : Page} (hd : s.page = some d) (byWrite : Bool) :
    (openSlot env r addr byWrite s).page =
        some (if byWrite then d else serverPage s r (r.index addr)) ∧
      (openSlot env r addr byWrite s).resident = Function.update s.resident (r.page (r.index addr))
        (some (if byWrite then d else serverPage s r (r.index addr))) ∧
      (openSlot env r addr byWrite s).host = s.host := by
  cases byWrite with
  | true => simp [openSlot, hd]
  | false => simp [openSlot, exchange, handle_readRequest env hl (index_lt hin)]

end Server

section Resident

variable (env : Env) {s : System} {r : Region} {q : Option Slot}

lemma evictSlot_resident_other (hq : Slotted s r q) {p : Nat}
    (hp : ∀ i, i < r.npages.toNat → p ≠ r.page i) :
    (evictSlot env r q s).resident p = s.resident p := by
  cases q with
  | none => rfl
  | some t => rw [evictSlot_resident, Function.update_of_ne (hp _ (hq.inside t rfl))]

lemma resident_of_evictSlot {p : Nat} (h : (evictSlot env r q s).resident p ≠ none) :
    s.resident p ≠ none := by
  intro hc
  apply h
  cases q with
  | none => exact hc
  | some t =>
    rw [evictSlot_resident]
    by_cases hpt : p = r.page t.page
    · simp [hpt]
    · rw [Function.update_of_ne hpt, hc]

end Resident

/-- Two regions share no page and no descriptor. -/
structure Region.Beside (r r' : Region) : Prop where
  uffd : r.uffd ≠ r'.uffd
  range : r.startAddr + 4096 * r.npages.toNat ≤ r'.startAddr ∨
    r'.startAddr + 4096 * r'.npages.toNat ≤ r.startAddr

/-- Two regions share no page, no handle and no descriptor. -/
structure Region.Apart (r r' : Region) : Prop where
  uffd : r.uffd ≠ r'.uffd
  hndl : r.hndl ≠ r'.hndl
  range : r.startAddr + 4096 * r.npages.toNat ≤ r'.startAddr ∨
    r'.startAddr + 4096 * r'.npages.toNat ≤ r.startAddr

lemma Region.Beside.symm {r r' : Region} (h : r.Beside r') : r'.Beside r :=
  ⟨h.uffd.symm, h.range.symm⟩

lemma Region.Apart.symm {r r' : Region} (h : r.Apart r') : r'.Apart r :=
  ⟨h.uffd.symm, h.hndl.symm, h.range.symm⟩

lemma Region.Apart.beside {r r' : Region} (h : r.Apart r') : r.Beside r' := ⟨h.uffd, h.range⟩

lemma Region.Beside.page_ne {r r' : Region} (h : r.Beside r') (hw : r.WellFormed) (hw' : r'.WellFormed)
    {i j : Nat} (hi : i < r.npages.toNat) (hj : j < r'.npages.toNat) : r.page i ≠ r'.page j := by
  have hal := hw.aligned
  have hal' := hw'.aligned
  unfold Region.page
  rcases h.range with h | h <;> omega

lemma Region.WellFormed.npages_pos {r : Region} (hw : r.WellFormed) : 0 < r.npages.toNat :=
  Nat.pos_of_ne_zero (fun h0 => hw.npages_ne (UInt32.toNat_inj.mp h0))

lemma Region.Beside.start_ne {r r' : Region} (h : r.Beside r') (hw : r.WellFormed)
    (hw' : r'.WellFormed) : r.startAddr ≠ r'.startAddr := by
  have hn := hw.npages_pos
  have hn' := hw'.npages_pos
  have hrange := h.range
  omega

section Resolved

variable (env : Env) {s : System} {r : Region} {q : Option Slot} {a addr : Nat} {d : Page}

/-- The page a fault installs. -/
def installedPage (env : Env) (r : Region) (q : Option Slot) (addr : Nat) (byWrite : Bool)
    (d : Page) (s : System) : Page :=
  if byWrite then d else serverPage (evictSlot env r q s) r (r.index addr)

lemma evictSlot_faultTaken_host (byWrite : Bool) :
    (evictSlot env r q (faultTaken r.uffd byWrite addr s)).host = (evictSlot env r q s).host := by
  cases q with
  | none => rfl
  | some t =>
    unfold evictSlot
    dsimp only
    split <;> rfl

lemma slotted_faultTaken (hq : Slotted s r q) (byWrite : Bool) :
    Slotted (faultTaken r.uffd byWrite addr s) r q :=
  ⟨hq.addr, hq.op, hq.inside, hq.resident⟩

lemma evictSlot_faultTaken_eq (hl : Live s.host.server r.hndl a r.npages) (hd : s.page = some d)
    (hq : Slotted s r q) (addr : Nat) (byWrite : Bool) :
    Live (evictSlot env r q (faultTaken r.uffd byWrite addr s)).host.server r.hndl a r.npages ∧
      (evictSlot env r q (faultTaken r.uffd byWrite addr s)).page = some d := by
  constructor
  · rw [evictSlot_faultTaken_host, evictSlot_server env hl hq.inside]
    exact hl
  · rw [evictSlot_page]
    exact hd

lemma resolved_eq (hl : Live s.host.server r.hndl a r.npages) (hin : r.Contains addr)
    (hd : s.page = some d) (hq : Slotted s r q) (byWrite : Bool) :
    (resolved env r q addr byWrite s).page = some (installedPage env r q addr byWrite d s) ∧
      (resolved env r q addr byWrite s).resident =
        Function.update (evictSlot env r q (faultTaken r.uffd byWrite addr s)).resident
          (r.page (r.index addr)) (some (installedPage env r q addr byWrite d s)) ∧
      (resolved env r q addr byWrite s).host = (evictSlot env r q s).host := by
  have hhost : (evictSlot env r q (faultTaken r.uffd byWrite addr s)).host =
      (evictSlot env r q s).host := evictSlot_faultTaken_host env byWrite
  obtain ⟨hl₁, hd₁⟩ := evictSlot_faultTaken_eq env hl hd hq addr byWrite
  obtain ⟨hp, hres, hh⟩ := openSlot_eq env hl₁ hin hd₁ byWrite
  rw [serverPage_congr hhost] at hp hres
  exact ⟨hp, hres, hh.trans hhost⟩

lemma resolved_resident (byWrite : Bool) :
    (resolved env r q addr byWrite s).resident =
      Function.update (evictSlot env r q (faultTaken r.uffd byWrite addr s)).resident
        (r.page (r.index addr)) (resolved env r q addr byWrite s).page := rfl

lemma slotted_resolved_page (hin : r.Contains addr) (hq : Slotted s r q) (byWrite : Bool)
    (hp : (resolved env r q addr byWrite s).page = some d) :
    Slotted (resolved env r q addr byWrite s) r (some ⟨r.index addr, byWrite, d⟩) := by
  refine ⟨?_, ?_, ?_, ?_⟩
  · change (UnorderedMap.set _ r.uffd _).find r.uffd = _
    simp
  · change (UnorderedMap.set _ r.uffd _).find r.uffd = _
    simp
  · rintro t ht
    obtain rfl := Option.some.inj ht
    exact index_lt hin
  · intro i hi
    rw [resolved_resident, hp]
    by_cases hidx : r.index addr = i
    · simp [hidx]
    · rw [Function.update_of_ne (by simpa [page_inj] using fun h => hidx h.symm),
        evictSlot_resident_own env (slotted_faultTaken hq byWrite) hi]
      simp [hidx]

lemma slotted_resolved (hl : Live s.host.server r.hndl a r.npages) (hin : r.Contains addr)
    (hd : s.page = some d) (hq : Slotted s r q) (byWrite : Bool) :
    Slotted (resolved env r q addr byWrite s) r
      (some ⟨r.index addr, byWrite, installedPage env r q addr byWrite d s⟩) :=
  slotted_resolved_page env hin hq byWrite (resolved_eq env hl hin hd hq byWrite).1

lemma slotted_resolved_other {r' : Region} {q' : Option Slot} (hw : r.WellFormed)
    (hw' : r'.WellFormed) (hb : r.Beside r') (hin : r.Contains addr) (hq : Slotted s r q)
    (hq' : Slotted s r' q') (byWrite : Bool) :
    Slotted (resolved env r q addr byWrite s) r' q' := by
  have hu : r'.uffd ≠ r.uffd := hb.uffd.symm
  refine ⟨?_, ?_, hq'.inside, ?_⟩
  · change (UnorderedMap.set _ r.uffd _).find r'.uffd = _
    simpa [hu, faultTaken, faultRead] using hq'.addr
  · change (UnorderedMap.set _ r.uffd _).find r'.uffd = _
    simpa [hu, faultTaken, faultRead] using hq'.op
  · intro i hi
    rw [resolved_resident, Function.update_of_ne (hb.symm.page_ne hw' hw hi (index_lt hin)),
      evictSlot_resident_other env (slotted_faultTaken hq byWrite)
        (fun j hj => hb.symm.page_ne hw' hw hi hj)]
    exact hq'.resident i hi

end Resolved

section ResolvedFields

variable (env : Env) (s : System) (r : Region) (q : Option Slot) (addr : Nat) (byWrite : Bool)

lemma resolved_kernel :
    (resolved env r q addr byWrite s).mapped = s.mapped ∧
      (resolved env r q addr byWrite s).openFds = s.openFds ∧
      (resolved env r q addr byWrite s).uffdAt = s.uffdAt ∧
      (resolved env r q addr byWrite s).handlerOf = s.handlerOf := by
  have hk := evictSlot_kernel env r q (faultTaken r.uffd byWrite addr s)
  unfold resolved openSlot
  cases byWrite <;> exact hk

lemma resolved_globals :
    (resolved env r q addr byWrite s).globals =
      { s.globals with
        msg := ⟨.pagefault, opOf byWrite, addr⟩
        uffdPrevResolvedAddr :=
          s.globals.uffdPrevResolvedAddr.set r.uffd (r.startAddr + 4096 * r.index addr)
        uffdPrevResolvedOp := s.globals.uffdPrevResolvedOp.set r.uffd (opOf byWrite) } := by
  unfold resolved openSlot
  cases byWrite <;> simp [exchange, faultTaken, faultRead]

lemma resolved_requests :
    (resolved env r q addr byWrite s).requests = s.requests := by
  unfold resolved openSlot
  cases byWrite <;> simp [exchange, faultTaken, faultRead]

end ResolvedFields

/-! ### The invariant -/

/-- The server holds one live handle for every region allocated so far. -/
structure Serves (sv : Server) (allocated : List Region) : Prop where
  inStep : InStep sv
  count : sv.handleCount.toNat = allocated.length
  live : ∀ r ∈ allocated, ∃ a, Live sv r.hndl a r.npages
  range : ∀ r ∈ allocated, ∃ k, k < sv.handleCount.toNat ∧ r.hndl = Int.ofNat k

/-- Nothing is recorded for pages and descriptors the kernel has not handed out. -/
structure Known (s : System) (allocated : List Region) : Prop where
  mapped : ∀ r ∈ allocated, ∀ i, i < r.npages.toNat → s.mapped (r.page i) = true
  uffd : ∀ r ∈ allocated, 0 ≤ r.uffd ∧ r.uffd < 2 ^ 31 ∧ s.openFds r.uffd = true
  hndlKeys : ∀ a, s.globals.addrHndlMap.find a ≠ none → s.mapped (a / 4096) = true
  startKeys : ∀ a, s.globals.startAddrUffdMap.find a ≠ none → s.mapped (a / 4096) = true
  tidKeys : ∀ a, s.globals.addrTidMap.find a ≠ none → s.mapped (a / 4096) = true
  uffdKeys : ∀ u, s.globals.uffdStartAddrMap.find u ≠ none → s.openFds u = true
  addrKeys : ∀ u, s.globals.uffdPrevResolvedAddr.find u ≠ none → s.openFds u = true
  opKeys : ∀ u, s.globals.uffdPrevResolvedOp.find u ≠ none → s.openFds u = true
  resident : ∀ p, s.resident p ≠ none → s.mapped p = true

/-- The state between two events, with the regions allocated so far and those that are
registered. -/
structure Linked (s : System) (allocated regions : List Region) : Prop where
  ready : Ready s
  unlocked : s.locked = false
  page : allocated ≠ [] → s.page ≠ none
  sub : ∀ r ∈ regions, r ∈ allocated
  wf : ∀ r ∈ allocated, r.WellFormed
  nodup : (allocated.map Region.uffd).Nodup
  apart : ∀ r ∈ allocated, ∀ r' ∈ allocated, r ≠ r' → r.Apart r'
  attached : ∀ r ∈ regions, Attached s r
  slotted : ∀ r ∈ regions, ∃ q, Slotted s r q
  threads : ∀ r ∈ regions, ∀ t, s.globals.addrTidMap.find r.startAddr = some t →
    s.handlerOf r.uffd = some t
  distinct : ∀ r ∈ regions, ∀ r' ∈ regions, s.handlerOf r.uffd = s.handlerOf r'.uffd → r = r'
  known : Known s allocated
  serves : Serves s.host.server allocated

lemma init_linked (mem : Nat → UInt8) : Linked (System.init mem) [] [] where
  ready := ⟨rfl, rfl⟩
  unlocked := rfl
  page h := absurd rfl h
  sub := by simp
  wf := by simp
  nodup := by simp
  apart := by simp
  attached := by simp
  slotted := by simp
  threads := by simp
  distinct := by simp
  known := by constructor <;> simp [System.init]
  serves := ⟨fresh_inStep mem, rfl, by simp, by simp⟩

section Invariant

variable (env : Env) {s : System} {allocated regions : List Region} {r : Region} {addr : Nat}

lemma Linked.length_le (h : Linked s allocated regions) : allocated.length ≤ 2 ^ 31 := by
  have hsub : allocated.map Region.uffd ⊆ (List.range (2 ^ 31)).map Int.ofNat := by
    intro u hu
    obtain ⟨r, hr, rfl⟩ := List.mem_map.mp hu
    obtain ⟨h0, h1, -⟩ := h.known.uffd r hr
    exact List.mem_map.mpr ⟨r.uffd.toNat, List.mem_range.mpr (by omega), Int.toNat_of_nonneg h0⟩
  have hle := (List.subperm_of_subset h.nodup hsub).length_le
  simpa using hle

lemma Linked.obtain (h : Linked s allocated regions) (hr : r ∈ regions) :
    r.WellFormed ∧ Attached s r ∧ (∃ q, Slotted s r q) ∧ (∃ d, s.page = some d) ∧
      ∃ a, Live s.host.server r.hndl a r.npages := by
  have hal := h.sub r hr
  refine ⟨h.wf r hal, h.attached r hr, h.slotted r hr, ?_, h.serves.live r hal⟩
  exact Option.ne_none_iff_exists'.mp (h.page (List.ne_nil_of_mem hal))

lemma Linked.start_inj (h : Linked s allocated regions) {r r' : Region} (hr : r ∈ allocated)
    (hr' : r' ∈ allocated) (he : r.startAddr = r'.startAddr) : r = r' := by
  by_contra hne
  exact (h.apart r hr r' hr' hne).beside.start_ne (h.wf r hr) (h.wf r' hr') he

lemma Known.resolved (hk : Known s allocated) (hr : r ∈ allocated) (hin : r.Contains addr)
    {q : Option Slot} (hq : Slotted s r q) (byWrite : Bool) :
    Known (resolved env r q addr byWrite s) allocated := by
  obtain ⟨hm, ho, -, -⟩ := resolved_kernel env s r q addr byWrite
  have hg := resolved_globals env s r q addr byWrite
  have hru := (hk.uffd r hr).2.2
  constructor
  · rw [hm]
    exact hk.mapped
  · rw [ho]
    exact hk.uffd
  · rw [hg, hm]
    exact hk.hndlKeys
  · rw [hg, hm]
    exact hk.startKeys
  · rw [hg, hm]
    exact hk.tidKeys
  · rw [hg, ho]
    exact hk.uffdKeys
  · rw [hg, ho]
    intro u hu
    by_cases hur : u = r.uffd
    · rw [hur, hru]
    · exact hk.addrKeys u (by simpa [hur] using hu)
  · rw [hg, ho]
    intro u hu
    by_cases hur : u = r.uffd
    · rw [hur, hru]
    · exact hk.opKeys u (by simpa [hur] using hu)
  · rw [hm, resolved_resident]
    intro p hpr
    by_cases hpi : ∃ i, i < r.npages.toNat ∧ p = r.page i
    · obtain ⟨i, hi, rfl⟩ := hpi
      exact hk.mapped r hr i hi
    · have hne : ∀ i, i < r.npages.toNat → p ≠ r.page i := fun i hi he => hpi ⟨i, hi, he⟩
      rw [Function.update_of_ne (hne _ (index_lt hin)),
        evictSlot_resident_other env (slotted_faultTaken hq byWrite) hne] at hpr
      exact hk.resident p hpr

lemma Linked.resolved (h : Linked s allocated regions) (hr : r ∈ regions) (hin : r.Contains addr)
    {q : Option Slot} (hq : Slotted s r q) (byWrite : Bool) :
    Linked (resolved env r q addr byWrite s) allocated regions := by
  obtain ⟨hw, -, -, ⟨d, hd⟩, a, hl⟩ := h.obtain hr
  obtain ⟨hp, -, hhost⟩ := resolved_eq env hl hin hd hq byWrite
  obtain ⟨-, -, hat, hf⟩ := resolved_kernel env s r q addr byWrite
  have hg := resolved_globals env s r q addr byWrite
  have hrq := resolved_requests env s r q addr byWrite
  have hsv : (Proofs.resolved env r q addr byWrite s).host.server = s.host.server := by
    rw [hhost, evictSlot_server env hl hq.inside]
  refine ⟨?_, rfl, ?_, h.sub, h.wf, h.nodup, h.apart, ?_, ?_, ?_, ?_, ?_, ?_⟩
  · exact h.ready.congr (by rw [hg]) hrq
  · intro _
    rw [hp]
    simp
  · intro r' hr'
    exact (h.attached r' hr').congr (by rw [hg]) (by rw [hg]) (by rw [hg]) hat hf
  · intro r' hr'
    obtain ⟨q', hq'⟩ := h.slotted r' hr'
    by_cases hrr : r = r'
    · subst hrr
      exact ⟨_, slotted_resolved env hl hin hd hq byWrite⟩
    · exact ⟨q', slotted_resolved_other env hw (h.wf r' (h.sub r' hr'))
        (h.apart r (h.sub r hr) r' (h.sub r' hr') hrr).beside hin hq hq' byWrite⟩
  · rw [hg, hf]
    exact h.threads
  · rw [hf]
    exact h.distinct
  · exact h.known.resolved env (h.sub r hr) hin hq byWrite
  · rw [hsv]
    exact h.serves

end Invariant

/-! ### Accesses -/

def setPage (p : Nat) (d : Page) (s : System) : System :=
  { s with resident := Function.update s.resident p (some d) }

section Accesses

variable (env : Env) {s : System} {allocated regions : List Region} {r : Region} {addr : Nat}

lemma slotted_setPage {t : Slot} (hq : Slotted s r (some t)) (d : Page) :
    Slotted (setPage (r.page t.page) d s) r (some { t with contents := d }) := by
  refine ⟨hq.addr, hq.op, ?_, ?_⟩
  · rintro u hu
    obtain rfl := Option.some.inj hu
    exact hq.inside t rfl
  · intro i hi
    have hold := hq.resident i hi
    by_cases hti : t.page = i
    · simp [setPage, hti]
    · change Function.update s.resident (r.page t.page) (some d) (r.page i) = _
      rw [Function.update_of_ne (by simpa [page_inj] using fun h => hti h.symm), hold]
      simp [hti]

lemma slotted_setPage_other {r' : Region} {q' : Option Slot} (hw : r.WellFormed)
    (hw' : r'.WellFormed) (hb : r.Beside r') {i : Nat} (hi : i < r.npages.toNat)
    (hq' : Slotted s r' q') (d : Page) : Slotted (setPage (r.page i) d s) r' q' := by
  refine ⟨hq'.addr, hq'.op, hq'.inside, ?_⟩
  intro j hj
  change Function.update s.resident (r.page i) (some d) (r'.page j) = _
  rw [Function.update_of_ne (hb.symm.page_ne hw' hw hj hi)]
  exact hq'.resident j hj

lemma Known.setPage (hk : Known s allocated) (hr : r ∈ allocated) {i : Nat}
    (hi : i < r.npages.toNat) (d : Page) : Known (setPage (r.page i) d s) allocated := by
  refine ⟨hk.mapped, hk.uffd, hk.hndlKeys, hk.startKeys, hk.tidKeys, hk.uffdKeys, hk.addrKeys,
    hk.opKeys, ?_⟩
  intro p hp
  by_cases hpr : p = r.page i
  · rw [hpr]
    exact hk.mapped r hr i hi
  · have hp' : Function.update s.resident (r.page i) (some d) p ≠ none := hp
    rw [Function.update_of_ne hpr] at hp'
    exact hk.resident p hp'

lemma Linked.setPage (h : Linked s allocated regions) (hr : r ∈ regions) {t : Slot}
    (hq : Slotted s r (some t)) (d : Page) :
    Linked (setPage (r.page t.page) d s) allocated regions := by
  have hal := h.sub r hr
  have hin := hq.inside t rfl
  refine ⟨⟨h.ready.connected, h.ready.idle⟩, h.unlocked, h.page, h.sub, h.wf, h.nodup, h.apart, ?_,
    ?_, h.threads, h.distinct, h.known.setPage hal hin d, h.serves⟩
  · intro r' hr'
    exact (h.attached r' hr').congr rfl rfl rfl rfl rfl
  · intro r' hr'
    obtain ⟨q', hq'⟩ := h.slotted r' hr'
    by_cases hrr : r = r'
    · subst hrr
      exact ⟨_, slotted_setPage hq d⟩
    · exact ⟨q', slotted_setPage_other (h.wf r hal) (h.wf r' (h.sub r' hr'))
        (h.apart r hal r' (h.sub r' hr') hrr).beside hin hq' d⟩

lemma fetch_hit (hw : r.WellFormed) (hin : r.Contains addr) {t : Slot}
    (hq : Slotted s r (some t)) (ht : t.page = r.index addr) (byWrite : Bool) :
    s.fetch env byWrite addr = some (t.contents, s) := by
  have hres := hq.resident _ (index_lt hin)
  simp only [ht, Option.bind_some, if_true] at hres
  rw [System.fetch, page_index hw hin, hres]

/-- An access to another page of a region is retried after its fault has been resolved. -/
lemma fetch_miss (h : Linked s allocated regions) (hr : r ∈ regions) (hin : r.Contains addr)
    {q : Option Slot} (hq : Slotted s r q) (hmiss : ∀ t, q = some t → t.page ≠ r.index addr)
    {d : Page} (hd : s.page = some d) (byWrite : Bool) :
    s.fetch env byWrite addr = some (installedPage env r q addr byWrite d s,
      resolved env r q addr byWrite s) := by
  obtain ⟨hw, ha, -, -, a, hl⟩ := h.obtain hr
  have hres : s.resident (r.page (r.index addr)) = none := by
    rw [hq.resident _ (index_lt hin)]
    cases q with
    | none => rfl
    | some t => simp [hmiss t rfl]
  have hnew := (slotted_resolved env hl hin hd hq byWrite).resident _ (index_lt hin)
  simp only [Option.bind_some, if_true] at hnew
  simp only [System.fetch, page_index hw hin, hres,
    fault_eq env h.ready h.unlocked ha hw hin hd hq byWrite, hnew, Option.map_some]

end Accesses

/-! ### Allocation and unregistration -/

/-- The region a successful `rmp_alloc` returns. -/
def newRegion (env : Env) (npages : UInt32) (a : Nat) (s : System) : Region :=
  ⟨a, npages, handleOfCount s.host.server.handleCount, env.userfaultfd⟩

section Registration

variable {env : Env} {s : System} {allocated : List Region} {npages : UInt32} {a : Nat}

/-- The region a call of `rmp_alloc` registers, with the handle the server answered. -/
def registeredRegion (env : Env) (npages : UInt32) (a : Nat) (s : System) : Region :=
  ⟨a, npages, (s.host.handle env.serverOs (allocRequest env s npages)).1.hndl, env.userfaultfd⟩

lemma Registers.wellFormed (hg : Registers env npages a s) :
    (registeredRegion env npages a s).WellFormed :=
  ⟨hg.aligned, hg.bound, hg.npages_ne⟩

lemma pageIn_iff (hal : a % 4096 = 0) (n p : Nat) :
    pageIn a (4096 * n) p = true ↔ ∃ i, i < n ∧ p = a / 4096 + i := by
  simp only [pageIn, Bool.and_eq_true, decide_eq_true_eq]
  constructor
  · rintro ⟨h1, h2⟩
    exact ⟨p - a / 4096, by omega, by omega⟩
  · rintro ⟨i, hi, rfl⟩
    omega

lemma Registers.unmapped (hg : Registers env npages a s) {i : Nat} (hi : i < npages.toNat) :
    s.mapped (a / 4096 + i) = false :=
  hg.unused _ ((pageIn_iff hg.aligned _ _).mpr ⟨i, hi, rfl⟩)

lemma Known.new_beside (hk : Known s allocated) (hg : Registers env npages a s) {r : Region}
    (hr : r ∈ allocated) (hw : r.WellFormed) : (registeredRegion env npages a s).Beside r := by
  have hn := hw.npages_pos
  constructor
  · intro he
    have hopen := (hk.uffd r hr).2.2
    rw [← he] at hopen
    exact absurd (hg.uffd_unused.symm.trans hopen) (by simp)
  · by_contra hc
    simp only [not_or, Nat.not_le] at hc
    obtain ⟨hc1, hc2⟩ := hc
    have hal := hw.aligned
    have hal' := hg.aligned
    have hnp := hg.npages_pos
    dsimp only [registeredRegion] at hc1 hc2
    -- the later of the two first pages belongs to both regions
    by_cases hle : a ≤ r.startAddr
    · have hm := hk.mapped r hr 0 hn
      have hu := hg.unmapped (i := r.startAddr / 4096 - a / 4096) (by omega)
      rw [show a / 4096 + (r.startAddr / 4096 - a / 4096) = r.page 0 by
        unfold Region.page
        omega] at hu
      exact absurd (hu.symm.trans hm) (by simp)
    · have hm := hk.mapped r hr (a / 4096 - r.startAddr / 4096) (by omega)
      have hu := hg.unmapped (i := 0) hnp
      rw [show r.page (a / 4096 - r.startAddr / 4096) = a / 4096 + 0 by
        unfold Region.page
        omega] at hm
      exact absurd (hu.symm.trans hm) (by simp)

lemma Known.start_fresh (hk : Known s allocated) (hg : Registers env npages a s) :
    s.globals.addrHndlMap.find a = none ∧ s.globals.startAddrUffdMap.find a = none ∧
      s.globals.addrTidMap.find a = none := by
  have hu : s.mapped (a / 4096) = false := hg.unmapped hg.npages_pos
  refine ⟨?_, ?_, ?_⟩ <;> by_contra hc
  · exact absurd (hu.symm.trans (hk.hndlKeys a hc)) (by simp)
  · exact absurd (hu.symm.trans (hk.startKeys a hc)) (by simp)
  · exact absurd (hu.symm.trans (hk.tidKeys a hc)) (by simp)

lemma Known.uffd_fresh (hk : Known s allocated) (hg : Registers env npages a s) :
    s.globals.uffdStartAddrMap.find env.userfaultfd = none ∧
      s.globals.uffdPrevResolvedAddr.find env.userfaultfd = none ∧
      s.globals.uffdPrevResolvedOp.find env.userfaultfd = none := by
  have hu := hg.uffd_unused
  refine ⟨?_, ?_, ?_⟩ <;> by_contra hc
  · exact absurd (hu.symm.trans (hk.uffdKeys _ hc)) (by simp)
  · exact absurd (hu.symm.trans (hk.addrKeys _ hc)) (by simp)
  · exact absurd (hu.symm.trans (hk.opKeys _ hc)) (by simp)

lemma Known.new_attached (hk : Known s allocated) (hg : Registers env npages a s) :
    Attached (alloced env npages a s) (registeredRegion env npages a s) := by
  obtain ⟨h1, h2, -⟩ := hk.start_fresh hg
  obtain ⟨h3, -, -⟩ := hk.uffd_fresh hg
  refine ⟨?_, ?_, ?_, ?_, ?_⟩
  · change (s.globals.addrHndlMap.insert a _).find a = _
    simp [UnorderedMap.find_insert, h1, registeredRegion]
  · change (s.globals.uffdStartAddrMap.insert env.userfaultfd a).find env.userfaultfd = _
    simp [UnorderedMap.find_insert, h3, registeredRegion]
  · change (s.globals.startAddrUffdMap.insert a env.userfaultfd).find a = _
    simp [UnorderedMap.find_insert, h2, registeredRegion]
  · change Function.update s.handlerOf env.userfaultfd _ env.userfaultfd ≠ none
    simp
  · intro i hi
    have hp : pageIn a (4096 * npages.toNat) (a / 4096 + i) = true :=
      (pageIn_iff hg.aligned _ _).mpr ⟨i, hi, rfl⟩
    change (if pageIn a (4096 * npages.toNat) (a / 4096 + i) = true then _ else _) = _
    rw [if_pos hp]
    rfl

lemma Known.new_slotted (hk : Known s allocated) (hg : Registers env npages a s) :
    Slotted (alloced env npages a s) (registeredRegion env npages a s) none := by
  obtain ⟨-, h1, h2⟩ := hk.uffd_fresh hg
  refine ⟨h1, h2, by simp, ?_⟩
  intro i hi
  change s.resident (a / 4096 + i) = none
  by_contra hc
  exact absurd ((hg.unmapped hi).symm.trans (hk.resident _ hc)) (by simp)

lemma Attached.alloced {r : Region} (ha : Attached s r) (hw : r.WellFormed)
    (hg : Registers env npages a s) (hb : (registeredRegion env npages a s).Beside r) :
    Attached (alloced env npages a s) r := by
  have hne : r.startAddr ≠ a := (hb.start_ne hg.wellFormed hw).symm
  have hu : r.uffd ≠ env.userfaultfd := hb.uffd.symm
  refine ⟨?_, ?_, ?_, ?_, ?_⟩
  · change (s.globals.addrHndlMap.insert a _).find r.startAddr = _
    simpa [UnorderedMap.find_insert, hne] using ha.hndl
  · change (s.globals.uffdStartAddrMap.insert env.userfaultfd a).find r.uffd = _
    simpa [UnorderedMap.find_insert, hu] using ha.start
  · change (s.globals.startAddrUffdMap.insert a env.userfaultfd).find r.startAddr = _
    simpa [UnorderedMap.find_insert, hne] using ha.uffd
  · change Function.update s.handlerOf env.userfaultfd _ r.uffd ≠ none
    simpa [hu] using ha.handler
  · intro i hi
    have hp : ¬pageIn a (4096 * npages.toNat) (r.page i) = true := by
      intro hp
      obtain ⟨j, hj, he⟩ := (pageIn_iff hg.aligned _ _).mp hp
      exact hb.page_ne hg.wellFormed hw hj hi he.symm
    change (if pageIn a (4096 * npages.toNat) (r.page i) = true then _ else _) = _
    rw [if_neg hp]
    exact ha.registered i hi

lemma Known.alloced (hk : Known s allocated) (hg : Registers env npages a s) :
    Known (Proofs.alloced env npages a s) (allocated ++ [registeredRegion env npages a s]) := by
  have hmono : ∀ p, s.mapped p = true → (Proofs.alloced env npages a s).mapped p = true := by
    intro p hp
    change (pageIn a (4096 * npages.toNat) p || s.mapped p) = true
    simp [hp]
  have hnew : ∀ i, i < npages.toNat → (Proofs.alloced env npages a s).mapped (a / 4096 + i) = true := by
    intro i hi
    change (pageIn a (4096 * npages.toNat) (a / 4096 + i) || s.mapped (a / 4096 + i)) = true
    rw [(pageIn_iff hg.aligned _ _).mpr ⟨i, hi, rfl⟩, Bool.true_or]
  have hopen : ∀ u, s.openFds u = true → (Proofs.alloced env npages a s).openFds u = true := by
    intro u hu
    change Function.update s.openFds env.userfaultfd true u = true
    by_cases he : u = env.userfaultfd
    · simp [he]
    · simp [he, hu]
  have hself : (Proofs.alloced env npages a s).openFds env.userfaultfd = true :=
    Function.update_self _ _ _
  have hkeys : ∀ {V : Type} (m : UnorderedMap Nat V) (v : V),
      (∀ x, m.find x ≠ none → s.mapped (x / 4096) = true) →
      ∀ x, (m.insert a v).find x ≠ none → (Proofs.alloced env npages a s).mapped (x / 4096) = true := by
    intro V m v hm x hx
    by_cases hxa : x = a
    · rw [hxa]
      exact hnew 0 hg.npages_pos
    · exact hmono _ (hm x (by simpa [UnorderedMap.find_insert, hxa] using hx))
  refine ⟨?_, ?_, hkeys _ _ hk.hndlKeys, hkeys _ _ hk.startKeys, hkeys _ _ hk.tidKeys, ?_, ?_, ?_, ?_⟩
  · exact forall_mem_snoc.mpr ⟨fun r hr i hi => hmono _ (hk.mapped r hr i hi), hnew⟩
  · refine forall_mem_snoc.mpr ⟨?_, hg.uffd_range.1, hg.uffd_range.2, hself⟩
    intro r hr
    obtain ⟨h0, h1, h2⟩ := hk.uffd r hr
    exact ⟨h0, h1, hopen _ h2⟩
  · intro u hu
    by_cases he : u = env.userfaultfd
    · rw [he, hself]
    · have hu' : (s.globals.uffdStartAddrMap.insert env.userfaultfd a).find u ≠ none := hu
      exact hopen u (hk.uffdKeys u (by simpa [UnorderedMap.find_insert, he] using hu'))
  · exact fun u hu => hopen u (hk.addrKeys u hu)
  · exact fun u hu => hopen u (hk.opKeys u hu)
  · exact fun p hp => hmono p (hk.resident p hp)

end Registration

section Allocation

variable {env : Env} {s : System} {allocated regions : List Region} {npages : UInt32} {a : Nat}

lemma Grants.handle (hg : Grants env npages a s) :
    ∃ b, env.serverOs.mmapAnswer = some b ∧ b ≠ 0 ∧
      s.host.handle env.serverOs (allocRequest env s npages) =
        ({ allocRequest env s npages with hndl := handleOfCount s.host.server.handleCount },
          ⟨Server.alloced s.host.server npages b,
            (s.host.space.mmap (npages * 4096).toNat (some b)).2⟩) := by
  obtain ⟨b, hb⟩ := Option.ne_none_iff_exists'.mp hg.serverMmap
  exact ⟨b, hb, (hg.serverAnswer b hb).1,
    handle_alloc_granted env.serverOs s.host (allocRequest env s npages) rfl hg.serverLen hb⟩

lemma Grants.registeredRegion_eq (hg : Grants env npages a s) :
    registeredRegion env npages a s = newRegion env npages a s := by
  obtain ⟨b, -, -, hh⟩ := hg.handle
  rw [registeredRegion, newRegion, hh]

lemma Grants.wellFormed (hg : Grants env npages a s) : (newRegion env npages a s).WellFormed :=
  hg.registeredRegion_eq ▸ hg.registers.wellFormed

lemma Linked.new_apart (h : Linked s allocated regions) (hg : Grants env npages a s) :
    ∀ r ∈ allocated, (newRegion env npages a s).Apart r := by
  intro r hr
  have hb := h.known.new_beside hg.registers hr (h.wf r hr)
  rw [hg.registeredRegion_eq] at hb
  refine ⟨hb.uffd, ?_, hb.range⟩
  obtain ⟨k, hk, hkr⟩ := h.serves.range r hr
  intro he
  have hc : (Int.ofNat s.host.server.handleCount.toNat) = Int.ofNat k := he.trans hkr
  have := Int.ofNat.inj hc
  omega

lemma Serves.alloced {sv : Server} (h : Serves sv allocated) (hlen : allocated.length ≤ 2 ^ 31)
    {b : Nat} (hb : b ≠ 0) (hn : npages ≠ 0) {r : Region} (hr : r.hndl = handleOfCount sv.handleCount)
    (hnp : r.npages = npages) : Serves (Server.alloced sv npages b) (allocated ++ [r]) := by
  have hcount := toNat_handleCount_add_one (s := sv) (by
    have hc := h.count
    omega)
  refine ⟨h.inStep.alloced hn hb, ?_, ?_, ?_⟩
  · rw [Server.alloced, hcount, h.count, List.length_append, List.length_singleton]
  · refine forall_mem_snoc.mpr ⟨?_, b, live_alloced.mpr (Or.inl ⟨hr, rfl, hnp.symm⟩)⟩
    intro r' hr'
    obtain ⟨c, hc⟩ := h.live r' hr'
    obtain ⟨k, hk, hkr⟩ := h.range r' hr'
    refine ⟨c, live_alloced.mpr (Or.inr ⟨?_, hc⟩)⟩
    intro he
    have hke : Int.ofNat k = Int.ofNat sv.handleCount.toNat := hkr.symm.trans he
    have := Int.ofNat.inj hke
    omega
  · change ∀ r' ∈ allocated ++ [r], ∃ k, k < (sv.handleCount + 1).toNat ∧ r'.hndl = Int.ofNat k
    rw [hcount]
    refine forall_mem_snoc.mpr ⟨?_, sv.handleCount.toNat, by omega, hr⟩
    intro r' hr'
    obtain ⟨k, hk, hkr⟩ := h.range r' hr'
    exact ⟨k, by omega, hkr⟩

lemma Linked.new_slotted (h : Linked s allocated regions) (hg : Grants env npages a s) :
    Slotted (alloced env npages a s) (newRegion env npages a s) none :=
  hg.registeredRegion_eq ▸ h.known.new_slotted hg.registers

lemma Linked.start_ne_new (h : Linked s allocated regions) (hg : Grants env npages a s) :
    ∀ r ∈ allocated, r.startAddr ≠ a := by
  intro r hr
  exact ((h.new_apart hg r hr).beside.start_ne hg.wellFormed (h.wf r hr)).symm

lemma Linked.alloced (h : Linked s allocated regions) (hg : Grants env npages a s) :
    Linked (alloced env npages a s) (allocated ++ [newRegion env npages a s])
      (regions ++ [newRegion env npages a s]) := by
  obtain ⟨b, -, hb, hh⟩ := hg.handle
  have hap := h.new_apart hg
  have htid : (Proofs.alloced env npages a s).handlerOf =
      Function.update s.handlerOf env.userfaultfd (some env.pthreadCreate.2) := rfl
  have hold : ∀ r ∈ regions, r.uffd ≠ env.userfaultfd := fun r hr => (hap r (h.sub r hr)).uffd.symm
  refine ⟨⟨h.ready.connected, h.ready.idle⟩, h.unlocked, ?_, ?_, ?_, ?_, ?_, ?_, ?_, ?_, ?_,
    hg.registeredRegion_eq ▸ h.known.alloced hg.registers, ?_⟩
  · intro _
    change some _ ≠ none
    simp
  · exact forall_mem_snoc.mpr ⟨fun r hr => List.mem_append_left _ (h.sub r hr), by simp⟩
  · exact forall_mem_snoc.mpr ⟨h.wf, hg.wellFormed⟩
  · rw [List.map_append, List.nodup_append]
    refine ⟨h.nodup, by simp, ?_⟩
    intro u hu v hv
    obtain ⟨r, hr, rfl⟩ := List.mem_map.mp hu
    obtain rfl : v = env.userfaultfd := by simpa [newRegion] using hv
    exact (hap r hr).uffd.symm
  · exact forall_pair_mem_snoc h.apart
      (fun r hr => ⟨fun _ => (hap r hr).symm, fun _ => hap r hr⟩) (fun hne => absurd rfl hne)
  · refine forall_mem_snoc.mpr ⟨?_, hg.registeredRegion_eq ▸ h.known.new_attached hg.registers⟩
    intro r hr
    have hb := h.known.new_beside hg.registers (h.sub r hr) (h.wf r (h.sub r hr))
    exact (h.attached r hr).alloced (h.wf r (h.sub r hr)) hg.registers hb
  · refine forall_mem_snoc.mpr ⟨?_, none, h.new_slotted hg⟩
    intro r hr
    obtain ⟨q, hq⟩ := h.slotted r hr
    exact ⟨q, hq.addr, hq.op, hq.inside, hq.resident⟩
  · refine forall_mem_snoc.mpr ⟨?_, ?_⟩
    · intro r hr t ht
      have ht' : (s.globals.addrTidMap.insert a env.pthreadCreate.2).find r.startAddr = some t := ht
      have hne : r.startAddr ≠ a := h.start_ne_new hg r (h.sub r hr)
      rw [htid, Function.update_of_ne (hold r hr)]
      exact h.threads r hr t (by simpa [UnorderedMap.find_insert, hne] using ht')
    · intro t ht
      have ht' : (s.globals.addrTidMap.insert a env.pthreadCreate.2).find a = some t := ht
      rw [htid]
      simpa [newRegion, UnorderedMap.find_insert, (h.known.start_fresh hg.registers).2.2] using ht'
  · rw [htid]
    refine forall_pair_mem_snoc ?_ ?_ (fun _ => rfl)
    · intro r hr r' hr' he
      rw [Function.update_of_ne (hold r hr), Function.update_of_ne (hold r' hr')] at he
      exact h.distinct r hr r' hr' he
    · -- the thread of the new region handles no other
      intro r hr
      rw [Function.update_of_ne (hold r hr)]
      have hne : s.handlerOf r.uffd ≠ some env.pthreadCreate.2 := hg.tid r.uffd
      exact ⟨fun he => absurd he (by simpa [newRegion] using hne),
        fun he => absurd he.symm (by simpa [newRegion] using hne)⟩
  · have hsv : (Proofs.alloced env npages a s).host.server =
        Server.alloced s.host.server npages b := by
      change (s.host.handle env.serverOs (allocRequest env s npages)).2.server = _
      rw [hh]
    rw [hsv]
    exact h.serves.alloced h.length_le hb (npages_ne_zero_of_mul hg.serverLen) rfl rfl

/-- The thread table and the thread map are the only parts of the result of an unregistration
that depend on the thread id found. -/
lemma unregistered_eq (env : Env) (s : System) (r : Region) (q : Option Slot) :
    ∃ tids handlers,
      unregistered env r q s =
        { evictSlot env r q s with
          globals := { s.globals with
            startAddrUffdMap := s.globals.startAddrUffdMap.erase r.startAddr
            uffdStartAddrMap := s.globals.uffdStartAddrMap.erase r.uffd
            uffdPrevResolvedAddr := s.globals.uffdPrevResolvedAddr.erase r.uffd
            uffdPrevResolvedOp := s.globals.uffdPrevResolvedOp.erase r.uffd
            addrTidMap := tids }
          handlerOf := handlers } ∧
      (∀ x t, tids.find x = some t → s.globals.addrTidMap.find x = some t) ∧
      (∀ u, (∀ t, s.globals.addrTidMap.find r.startAddr = some t → s.handlerOf u ≠ some t) →
        handlers u = s.handlerOf u) := by
  obtain ⟨-, -, -, hf⟩ := evictSlot_kernel env r q s
  cases ht : s.globals.addrTidMap.find r.startAddr with
  | none =>
    refine ⟨s.globals.addrTidMap, s.handlerOf, ?_, fun _ _ h => h, fun _ _ => rfl⟩
    simp only [unregistered, ht, ← hf]
  | some tid =>
    refine ⟨s.globals.addrTidMap.erase tid,
      fun u => if s.handlerOf u = some tid then none else s.handlerOf u, ?_, ?_, ?_⟩
    · simp only [unregistered, ht]
    · intro x t hx
      exact ((UnorderedMap.find_erase_eq_some ..).mp hx).2
    · intro u hu
      simp [hu tid rfl]

lemma slotted_unregistered_other (env : Env) {s : System} {r r' : Region} {q q' : Option Slot}
    (hw : r.WellFormed) (hw' : r'.WellFormed) (hap : r'.Apart r) (hq : Slotted s r q)
    (hq' : Slotted s r' q') : Slotted (unregistered env r q s) r' q' := by
  obtain ⟨tids, handlers, he, -, -⟩ := unregistered_eq env s r q
  rw [he]
  refine ⟨?_, ?_, hq'.inside, ?_⟩
  · simpa [hap.uffd] using hq'.addr
  · simpa [hap.uffd] using hq'.op
  · intro i hi
    change (evictSlot env r q s).resident (r'.page i) = _
    rw [evictSlot_resident_other env hq (fun j hj => hap.beside.page_ne hw' hw hi hj)]
    exact hq'.resident i hi

lemma Known.unregistered (h : Known s allocated) (r : Region) (q : Option Slot) :
    Known (unregistered env r q s) allocated := by
  obtain ⟨tids, handlers, he, htids, -⟩ := unregistered_eq env s r q
  obtain ⟨hm, ho, -, -⟩ := evictSlot_kernel env r q s
  rw [he]
  constructor
  · simpa [hm] using h.mapped
  · simpa [ho] using h.uffd
  · simpa [hm] using h.hndlKeys
  · intro x hx
    simpa [hm] using h.startKeys x ((UnorderedMap.contains_erase ..).mp hx).2
  · intro x hx
    obtain ⟨t, ht⟩ := Option.ne_none_iff_exists'.mp hx
    have hold := h.tidKeys x (by simp [htids x t ht])
    simpa [hm] using hold
  · intro u hu
    simpa [ho] using h.uffdKeys u ((UnorderedMap.contains_erase ..).mp hu).2
  · intro u hu
    simpa [ho] using h.addrKeys u ((UnorderedMap.contains_erase ..).mp hu).2
  · intro u hu
    simpa [ho] using h.opKeys u ((UnorderedMap.contains_erase ..).mp hu).2
  · intro p hp
    simpa [hm] using h.resident p (resident_of_evictSlot env hp)

lemma Linked.unregistered (h : Linked s allocated regions) {r : Region} (hr : r ∈ regions)
    {q : Option Slot} (hq : Slotted s r q) :
    Linked (unregistered env r q s) allocated (regions.filter (fun r' => r' ≠ r)) := by
  obtain ⟨hw, -, -, -, b, hl⟩ := h.obtain hr
  have hknown : Known (Proofs.unregistered env r q s) allocated := h.known.unregistered r q
  have hslotted : ∀ r' ∈ regions, r' ≠ r → ∀ q', Slotted s r' q' →
      Slotted (Proofs.unregistered env r q s) r' q' := by
    intro r' hr' hne q' hq'
    have hal' := h.sub r' hr'
    exact slotted_unregistered_other env hw (h.wf r' hal') (h.apart r' hal' r (h.sub r hr) hne) hq hq'
  obtain ⟨tids, handlers, he, htids, hhand⟩ := unregistered_eq env s r q
  obtain ⟨-, -, hat, -⟩ := evictSlot_kernel env r q s
  have hal := h.sub r hr
  have hother : ∀ r' ∈ regions.filter (fun r' => r' ≠ r), r' ∈ regions ∧ r' ≠ r := by
    intro r' hr'
    simpa using List.mem_filter.mp hr'
  have hkeep : ∀ r' ∈ regions, r' ≠ r → handlers r'.uffd = s.handlerOf r'.uffd := by
    intro r' hr' hne
    apply hhand
    intro t ht hc
    exact hne (h.distinct r' hr' r hr (hc.trans (h.threads r hr t ht).symm))
  rw [he] at hknown hslotted ⊢
  refine ⟨?_, ?_, ?_, ?_, h.wf, h.nodup, h.apart, ?_, ?_, ?_, ?_, hknown, ?_⟩
  · exact h.ready.congr rfl (evictSlot_requests env r q s)
  · exact (evictSlot_locked env r q s).trans h.unlocked
  · intro hne
    exact fun hc => h.page hne ((evictSlot_page env r q s).symm.trans hc)
  · exact fun r' hr' => h.sub r' (hother r' hr').1
  · intro r' hr'
    obtain ⟨hr', hne⟩ := hother r' hr'
    have ha := h.attached r' hr'
    have hap := h.apart r' (h.sub r' hr') r hal hne
    have hst := hap.beside.start_ne (h.wf r' (h.sub r' hr')) hw
    refine ⟨ha.hndl, ?_, ?_, ?_, ?_⟩
    · simpa [hap.uffd] using ha.start
    · simpa [hst] using ha.uffd
    · simpa [hkeep r' hr' hne] using ha.handler
    · simpa [hat] using ha.registered
  · intro r' hr'
    obtain ⟨hr', hne⟩ := hother r' hr'
    obtain ⟨q', hq'⟩ := h.slotted r' hr'
    exact ⟨q', hslotted r' hr' hne q' hq'⟩
  · intro r' hr' t ht
    obtain ⟨hr', hne⟩ := hother r' hr'
    exact (hkeep r' hr' hne).trans (h.threads r' hr' t (htids _ _ ht))
  · intro r₁ hr₁ r₂ hr₂ heq
    obtain ⟨hr₁, hne₁⟩ := hother r₁ hr₁
    obtain ⟨hr₂, hne₂⟩ := hother r₂ hr₂
    exact h.distinct r₁ hr₁ r₂ hr₂
      ((hkeep r₁ hr₁ hne₁).symm.trans (heq.trans (hkeep r₂ hr₂ hne₂)))
  · have hsv := evictSlot_server env hl hq.inside
    change Serves (evictSlot env r q s).host.server allocated
    rw [hsv]
    exact h.serves

end Allocation

/-! ### Sessions -/

/-- A system, the regions allocated so far, those that are registered, and the memory the
program believes to have: the latest value stored at each address, 0 if there is none. -/
structure Session where
  sys : System
  allocated : List Region
  regions : List Region
  memory : Nat → UInt8

def Session.init (mem : Nat → UInt8) : Session := ⟨System.init mem, [], [], fun _ => 0⟩

/-- What the application thread does. An access names the region of its address, and a load
carries the value it returns. -/
inductive Event
  | alloc (env : Env) (npages : UInt32) (region : Region)
  | load (env : Env) (region : Region) (addr : Nat) (value : UInt8)
  | store (env : Env) (region : Region) (addr : Nat) (value : UInt8)
  | unregister (env : Env) (region : Region)

/-- The application allocates regions, accesses bytes of registered regions and unregisters
regions. Every allocation succeeds; its region carries the handle of the server's reply. -/
inductive Session.Step (c : Session) : Event → Session → Prop
  | alloc {env : Env} {npages : UInt32} {region : Region} {x : Exchange} {sys : System}
      (hg : Grants env npages region.startAddr c.sys)
      (h : c.sys.alloc env npages = some (.addr region.startAddr, sys))
      (hx : sys.log.getLast? = some x) (hh : region.hndl = x.reply.hndl)
      (hn : region.npages = npages) (hu : region.uffd = env.userfaultfd) :
      Step c (.alloc env npages region)
        { c with
          sys := sys
          allocated := c.allocated ++ [region]
          regions := c.regions ++ [region] }
  | load {env : Env} {addr : Nat} {value : UInt8} {sys : System} {r : Region} (hr : r ∈ c.regions)
      (hin : r.Contains addr) (h : c.sys.load env addr = some (value, sys)) :
      Step c (.load env r addr value) { c with sys := sys }
  | store {env : Env} {addr : Nat} {value : UInt8} {sys : System} {r : Region} (hr : r ∈ c.regions)
      (hin : r.Contains addr) (h : c.sys.store env addr value = some sys) :
      Step c (.store env r addr value)
        { c with sys := sys, memory := Function.update c.memory addr value }
  | unregister {env : Env} {r : Region} {sys : System} (hr : r ∈ c.regions)
      (h : c.sys.unregister env r.startAddr = some sys) :
      Step c (.unregister env r)
        { c with sys := sys, regions := c.regions.filter (fun r' => r' ≠ r) }

section Sessions

variable {s : System} {allocated regions : List Region} {r : Region}

/-- What an access to a byte of a region does before the byte itself is read or written. -/
inductive Fetched (env : Env) (r : Region) (addr : Nat) (byWrite : Bool) (s : System) :
    Page → System → Prop
  | hit {t : Slot} (hq : Slotted s r (some t)) (ht : t.page = r.index addr) :
      Fetched env r addr byWrite s t.contents s
  | miss {q : Option Slot} (hq : Slotted s r q) (hmiss : ∀ t, q = some t → t.page ≠ r.index addr)
      {d : Page} (hd : s.page = some d) :
      Fetched env r addr byWrite s (installedPage env r q addr byWrite d s)
        (resolved env r q addr byWrite s)

/-- Every access to a registered region comes to an end. -/
theorem Linked.fetched (h : Linked s allocated regions) (hr : r ∈ regions) {addr : Nat}
    (hin : r.Contains addr) (env : Env) (byWrite : Bool) :
    ∃ d s', s.fetch env byWrite addr = some (d, s') ∧ Fetched env r addr byWrite s d s' := by
  obtain ⟨hw, -, ⟨q, hq⟩, ⟨d, hd⟩, -⟩ := h.obtain hr
  by_cases hhit : ∃ t, q = some t ∧ t.page = r.index addr
  · obtain ⟨t, rfl, ht⟩ := hhit
    exact ⟨_, _, fetch_hit env hw hin hq ht byWrite, .hit hq ht⟩
  · have hmiss : ∀ t, q = some t → t.page ≠ r.index addr := fun t ht he => hhit ⟨t, ht, he⟩
    exact ⟨_, _, fetch_miss env h hr hin hq hmiss hd byWrite, .miss hq hmiss hd⟩

lemma Linked.load_fetched (h : Linked s allocated regions) (hr : r ∈ regions) {addr : Nat}
    (hin : r.Contains addr) {env : Env} {value : UInt8} {s' : System}
    (hload : s.load env addr = some (value, s')) :
    ∃ d, s.fetch env false addr = some (d, s') ∧ d (System.byteOf addr) = value ∧
      Fetched env r addr false s d s' := by
  obtain ⟨d, s₁, hf, hF⟩ := h.fetched hr hin env false
  rw [System.load, hf] at hload
  obtain ⟨hv, rfl⟩ : d (System.byteOf addr) = value ∧ s₁ = s' := by simpa using hload
  exact ⟨d, hf, hv, hF⟩

lemma Linked.store_fetched (h : Linked s allocated regions) (hr : r ∈ regions) {addr : Nat}
    (hin : r.Contains addr) {env : Env} {value : UInt8} {s' : System}
    (hstore : s.store env addr value = some s') :
    ∃ d s₁, Fetched env r addr true s d s₁ ∧
      s' = Proofs.setPage (r.page (r.index addr)) (Function.update d (System.byteOf addr) value)
        s₁ := by
  obtain ⟨d, s₁, hf, hF⟩ := h.fetched hr hin env true
  rw [System.store, hf, page_index (h.wf r (h.sub r hr)) hin] at hstore
  exact ⟨d, s₁, hF, (Option.some.inj hstore).symm⟩

lemma Linked.unregister_slotted (h : Linked s allocated regions) (hr : r ∈ regions) {env : Env}
    {s' : System} (hun : s.unregister env r.startAddr = some s') {q : Option Slot}
    (hq : Slotted s r q) : s' = Proofs.unregistered env r q s := by
  obtain ⟨hw, ha, -, -, -⟩ := h.obtain hr
  rw [unregister_eq h.ready ha hw hq] at hun
  exact (Option.some.inj hun).symm

lemma Fetched.slotted (h : Linked s allocated regions) (hr : r ∈ regions) {addr : Nat}
    (hin : r.Contains addr) {env : Env} {byWrite : Bool} {d : Page} {s' : System}
    (hf : Fetched env r addr byWrite s d s') :
    Linked s' allocated regions ∧
      ∃ t : Slot, t.page = r.index addr ∧ t.contents = d ∧ Slotted s' r (some t) := by
  cases hf with
  | hit hq ht => exact ⟨h, _, ht, rfl, hq⟩
  | miss hq hmiss hd =>
    obtain ⟨-, -, -, -, a, hl⟩ := h.obtain hr
    exact ⟨h.resolved env hr hin hq byWrite, _, rfl, rfl, slotted_resolved env hl hin hd hq byWrite⟩

lemma registered_alloc {env : Env} {npages : UInt32} {region : Region} {x : Exchange} {sys : System}
    (hg : Registers env npages region.startAddr s) (hs : Ready s)
    (h : s.alloc env npages = some (.addr region.startAddr, sys))
    (hx : sys.log.getLast? = some x) (hh : region.hndl = x.reply.hndl)
    (hn : region.npages = npages) (hu : region.uffd = env.userfaultfd) :
    sys = alloced env npages region.startAddr s ∧
      region = registeredRegion env npages region.startAddr s := by
  have hsys : alloced env npages region.startAddr s = sys := by
    simpa [alloc_eq hs hg] using h
  refine ⟨hsys.symm, ?_⟩
  rw [← hsys] at hx
  change (s.log ++ [_]).getLast? = some x at hx
  rw [List.getLast?_concat] at hx
  obtain rfl := Option.some.inj hx
  obtain ⟨st, n, hd, u⟩ := region
  simp only [registeredRegion, Region.mk.injEq, true_and]
  exact ⟨hn, hh, hu⟩

lemma step_alloc_region {env : Env} {npages : UInt32} {region : Region} {x : Exchange} {sys : System}
    (hg : Grants env npages region.startAddr s) (hs : Ready s)
    (h : s.alloc env npages = some (.addr region.startAddr, sys))
    (hx : sys.log.getLast? = some x) (hh : region.hndl = x.reply.hndl)
    (hn : region.npages = npages) (hu : region.uffd = env.userfaultfd) :
    sys = alloced env npages region.startAddr s ∧
      region = newRegion env npages region.startAddr s := by
  obtain ⟨hsys, hr⟩ := registered_alloc hg.registers hs h hx hh hn hu
  exact ⟨hsys, hr.trans hg.registeredRegion_eq⟩

/-- Every event keeps the invariant. -/
theorem step_linked {c c' : Session} {e : Event} (hl : Linked c.sys c.allocated c.regions)
    (h : Session.Step c e c') : Linked c'.sys c'.allocated c'.regions := by
  cases h with
  | alloc hg h hx hh hn hu =>
    obtain ⟨rfl, hr⟩ := step_alloc_region hg hl.ready h hx hh hn hu
    dsimp only
    rw [hr]
    exact hl.alloced hg
  | @load env addr value sys r hr hin h =>
    obtain ⟨d, -, -, hF⟩ := hl.load_fetched hr hin h
    exact (hF.slotted hl hr hin).1
  | @store env addr value sys r hr hin h =>
    obtain ⟨d, s', hF, rfl⟩ := hl.store_fetched hr hin h
    obtain ⟨hl', t, ht, -, hq⟩ := hF.slotted hl hr hin
    dsimp only
    rw [← ht]
    exact hl'.setPage hr hq _
  | @unregister env r sys hr h =>
    obtain ⟨-, -, ⟨q, hq⟩, -, -⟩ := hl.obtain hr
    obtain rfl := hl.unregister_slotted hr h hq
    exact hl.unregistered hr hq

/-- Every run keeps the invariant. -/
theorem run_linked {mem : Nat → UInt8} {tr : List (Session × Event)} {c : Session}
    (h : Run Session.Step (Session.init mem) tr c) : Linked c.sys c.allocated c.regions :=
  h.invariant (I := fun c => Linked c.sys c.allocated c.regions) (C := fun _ _ => True)
    (fun _ _ _ hl _ hst => step_linked hl hst) (init_linked mem) (fun _ _ => trivial)

/-- Every access to a registered region and every unregistration comes to an end. -/
def Completes (c : Session) : Prop :=
  ∀ r ∈ c.regions, ∀ env, (c.sys.unregister env r.startAddr).isSome ∧
    ∀ addr, r.Contains addr →
      (c.sys.load env addr).isSome ∧ ∀ value, (c.sys.store env addr value).isSome

lemma Linked.completes {c : Session} (h : Linked c.sys c.allocated c.regions) : Completes c := by
  intro r hr env
  obtain ⟨hw, ha, ⟨q, hq⟩, -, -⟩ := h.obtain hr
  refine ⟨by rw [unregister_eq h.ready ha hw hq]; rfl, fun addr hin => ⟨?_, fun value => ?_⟩⟩
  · obtain ⟨d, s', hf, -⟩ := h.fetched hr hin env false
    simp [System.load, hf]
  · obtain ⟨d, s', hf, -⟩ := h.fetched hr hin env true
    simp [System.store, hf]

/-- A kernel that grants everything: it maps the client's region at `a` and the server's at `b`
and opens descriptor `uffd` for thread `tid`. -/
def grantingEnv (a b : Nat) (uffd : Int) (tid : Nat) : Env where
  packetObject _ := ⟨0, 0, 0, 0, 0, zeroPage, 0⟩
  mmapAnswer := some a
  userfaultfd := uffd
  uffdioApi := 0
  uffdioRegister := 0
  pthreadCreate := (0, tid)
  socket := 0
  connect := 0
  pthreadSelf := 0
  dlsym := true
  stdlibMalloc := 0
  serverOs := ⟨some b, true⟩

instance : Nonempty Env := ⟨grantingEnv 0 0 0 0⟩

/-- The system after a load; a load that does not end leaves it as it is. -/
def loaded (env : Env) (addr : Nat) (s : System) : System :=
  ((s.load env addr).map Prod.snd).getD s

def stored (env : Env) (addr : Nat) (value : UInt8) (s : System) : System :=
  (s.store env addr value).getD s

lemma load_loaded (s : System) (env : Env) (addr : Nat) {value : UInt8}
    (h : (s.load env addr).map Prod.fst = some value) :
    s.load env addr = some (value, loaded env addr s) := by
  unfold loaded
  cases hx : s.load env addr with
  | none => simp [hx] at h
  | some x =>
    rw [hx] at h
    obtain rfl : x.1 = value := by simpa using h
    rfl

lemma store_stored (s : System) (env : Env) (addr : Nat) (value : UInt8)
    (h : (s.store env addr value).isSome = true) :
    s.store env addr value = some (stored env addr value s) := by
  unfold stored
  cases hx : s.store env addr value with
  | none => simp [hx] at h
  | some x => rfl

lemma alloc_step {c : Session} (hs : Ready c.sys) {env : Env} {npages : UInt32} {a : Nat}
    (hg : Grants env npages a c.sys) :
    Session.Step c (.alloc env npages (newRegion env npages a c.sys))
      { c with
        sys := alloced env npages a c.sys
        allocated := c.allocated ++ [newRegion env npages a c.sys]
        regions := c.regions ++ [newRegion env npages a c.sys] } := by
  obtain ⟨b, -, -, hb⟩ := hg.handle
  refine Session.Step.alloc hg (alloc_eq hs hg.registers) (List.getLast?_concat ..) ?_ rfl rfl
  rw [hb]
  rfl

/-- A kernel that maps the first region of the client and of the server at address 4096. -/
abbrev firstEnv : Env := grantingEnv 4096 4096 3 1

lemma init_grants : Grants firstEnv 2 4096 (System.init fun _ => 0) where
  mmap := rfl
  aligned := rfl
  bound := by decide
  unused _ _ := rfl
  uffd_range := by decide
  uffd_unused := rfl
  api := by decide
  register := by decide
  create := rfl
  tid _ := by simp [System.init]
  serverLen := by decide
  serverMmap := by simp [grantingEnv]
  serverAnswer := fresh_mmapAnswer _ (UInt32.toNat_lt _)

/-- The first region: two pages at address 4096. -/
def firstRegion : Region := ⟨4096, 2, 0, 3⟩

/-- The system after the first region has been allocated. -/
def firstSystem : System := alloced firstEnv 2 4096 (System.init fun _ => 0)

/-- A session with the first region only. -/
def firstSession (s : System) (memory : Nat → UInt8) : Session :=
  ⟨s, [firstRegion], [firstRegion], memory⟩

lemma first_run : Run Session.Step (Session.init fun _ => 0)
    [(Session.init fun _ => 0, .alloc firstEnv 2 firstRegion)]
    (firstSession firstSystem fun _ => 0) :=
  Run.single (alloc_step (c := Session.init fun _ => 0) ⟨rfl, rfl⟩ init_grants)

lemma first_load {memory : Nat → UInt8} {addr : Nat} {value : UInt8}
    (hin : firstRegion.Contains addr) (h : (s.load firstEnv addr).map Prod.fst = some value) :
    Session.Step (firstSession s memory) (.load firstEnv firstRegion addr value)
      (firstSession (loaded firstEnv addr s) memory) :=
  Session.Step.load (List.mem_singleton.mpr rfl) hin (load_loaded s firstEnv addr h)

lemma first_store {memory : Nat → UInt8} {addr : Nat} {value : UInt8}
    (hin : firstRegion.Contains addr) (h : (s.store firstEnv addr value).isSome = true) :
    Session.Step (firstSession s memory) (.store firstEnv firstRegion addr value)
      (firstSession (stored firstEnv addr value s) (Function.update memory addr value)) :=
  Session.Step.store (List.mem_singleton.mpr rfl) hin (store_stored s firstEnv addr value h)

lemma firstRegion_contains : firstRegion.Contains 4096 ∧ firstRegion.Contains 8192 := by
  unfold Region.Contains
  decide

end Sessions

end RemoteMemoryPool.Proofs
