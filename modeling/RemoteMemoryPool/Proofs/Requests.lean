import RemoteMemoryPool.Proofs.Session

/-!
# The requests the client sends

Every request for a page that the page resolver sends, for a fault or to write back the
previous page, is for a page the server holds, and it is the page of the address the resolver
was called with.
-/

namespace RemoteMemoryPool.Proofs

open Interaction Transition

/-- The request carries the handle of the region that contains the address the resolver was
called with and the index of the page of that address, and the server granted it. -/
def AsksRight (allocated : List Region) (x : Exchange) : Prop :=
  ∃ call r, x.call = some call ∧ r ∈ allocated ∧ r.startAddr = call.startAddr ∧
    r.Contains call.faultingAddr ∧ x.request.hndl = r.hndl ∧
    x.request.offset.toNat = (call.faultingAddr - r.startAddr) / 4096 ∧ x.reply.error = 0

/-- Requests other than allocations ask for the right page. -/
def LogRight (allocated : List Region) (log : List Exchange) : Prop :=
  ∀ x ∈ log, x.request.action = 0 ∨ AsksRight allocated x

lemma LogRight.mono {allocated : List Region} {log : List Exchange} (h : LogRight allocated log)
    (r : Region) : LogRight (allocated ++ [r]) log := by
  intro x hx
  refine (h x hx).imp id ?_
  rintro ⟨call, r', hc, hr', hrest⟩
  exact ⟨call, r', hc, List.mem_append_left _ hr', hrest⟩

lemma LogRight.snoc {allocated : List Region} {log : List Exchange} (h : LogRight allocated log)
    {x : Exchange} (hx : x.request.action = 0 ∨ AsksRight allocated x) :
    LogRight allocated (log ++ [x]) := by
  intro y hy
  rcases List.mem_append.mp hy with hy | hy
  · exact h y hy
  · obtain rfl := List.mem_singleton.mp hy
    exact hx

section Log

variable {env : Env} {s : System} {allocated regions : List Region} {r : Region} {a : Nat}

lemma LogRight.evictSlot (h : LogRight allocated s.log) (hr : r ∈ allocated)
    (hl : Live s.host.server r.hndl a r.npages) {q : Option Slot}
    (hq : ∀ t, q = some t → t.page < r.npages.toNat) :
    LogRight allocated (evictSlot env r q s).log := by
  cases q with
  | none => exact h
  | some t =>
    have ht := hq t rfl
    cases hw : t.byWrite with
    | false =>
      rw [show (Proofs.evictSlot env r (some t) s).log = s.log by simp [Proofs.evictSlot, hw]]
      exact h
    | true =>
      have hlog : (Proofs.evictSlot env r (some t) s).log =
          s.log ++ [⟨some ⟨r.startAddr, r.startAddr + 4096 * t.page, 1⟩,
            writeRequest env s r.hndl t.page t.contents,
            writeRequest env s r.hndl t.page t.contents⟩] := by
        simp [Proofs.evictSlot, hw, exchange, handle_writeRequest env hl ht]
      rw [hlog]
      apply h.snoc
      refine Or.inr ⟨_, r, rfl, hr, rfl, contains_start ht, rfl, ?_, rfl⟩
      have hidx : (r.startAddr + 4096 * t.page - r.startAddr) / 4096 = t.page := index_start t.page
      rw [hidx]
      exact toNat_ofNat_lt ht

lemma LogRight.openSlot (h : LogRight allocated s.log) (hr : r ∈ allocated)
    (hl : Live s.host.server r.hndl a r.npages) {addr : Nat} (hin : r.Contains addr)
    (byWrite : Bool) : LogRight allocated (openSlot env r addr byWrite s).log := by
  cases byWrite with
  | true => exact h
  | false =>
    have hlog : (Proofs.openSlot env r addr false s).log =
        s.log ++ [⟨some ⟨r.startAddr, addr, 0⟩, readRequest env s r.hndl (r.index addr),
          { readRequest env s r.hndl (r.index addr) with data := serverPage s r (r.index addr) }⟩] := by
      simp [Proofs.openSlot, exchange, handle_readRequest env hl (index_lt hin)]
    rw [hlog]
    apply h.snoc
    exact Or.inr ⟨_, r, rfl, hr, rfl, hin, rfl, toNat_ofNat_lt (index_lt hin), rfl⟩

lemma LogRight.resolved (h : LogRight allocated s.log) (hr : r ∈ allocated)
    (hl : Live s.host.server r.hndl a r.npages) {addr : Nat} (hin : r.Contains addr)
    {q : Option Slot} (hq : Slotted s r q) (byWrite : Bool) :
    LogRight allocated (resolved env r q addr byWrite s).log := by
  have hev : LogRight allocated (Proofs.evictSlot env r q (faultTaken r.uffd byWrite addr s)).log :=
    LogRight.evictSlot (s := faultTaken r.uffd byWrite addr s) h hr hl hq.inside
  apply hev.openSlot (a := a) hr _ hin
  rw [evictSlot_faultTaken_host, evictSlot_server env hl hq.inside]
  exact hl

lemma LogRight.fetched (h : LogRight allocated s.log) (hL : Linked s allocated regions)
    (hr : r ∈ regions) {addr : Nat} (hin : r.Contains addr) {byWrite : Bool} {d : Page}
    {s' : System} (hf : Fetched env r addr byWrite s d s') : LogRight allocated s'.log := by
  obtain ⟨-, -, -, -, b, hl⟩ := hL.obtain hr
  cases hf with
  | hit => exact h
  | miss hq hmiss hd => exact h.resolved (hL.sub r hr) hl hin hq byWrite

end Log

/-- Every event sends right requests only. -/
lemma step_logRight {c c' : Session} {e : Event} (hl : Linked c.sys c.allocated c.regions)
    (hlog : LogRight c.allocated c.sys.log) (h : Session.Step c e c') :
    LogRight c'.allocated c'.sys.log := by
  cases h with
  | alloc hg h hx hh hn hu =>
    obtain ⟨rfl, hr⟩ := step_alloc_region hg hl.ready h hx hh hn hu
    exact (hlog.mono _).snoc (Or.inl rfl)
  | @load env addr value sys r hr hin h =>
    obtain ⟨d, -, -, hF⟩ := hl.load_fetched hr hin h
    exact hlog.fetched hl hr hin hF
  | @store env addr value sys r hr hin h =>
    obtain ⟨d, s', hF, rfl⟩ := hl.store_fetched hr hin h
    change LogRight c.allocated s'.log
    exact hlog.fetched hl hr hin hF
  | @unregister env r sys hr h =>
    obtain ⟨-, -, ⟨q, hq⟩, -, b, hlv⟩ := hl.obtain hr
    obtain rfl := hl.unregister_slotted hr h hq
    obtain ⟨tids, handlers, he, -, -⟩ := unregistered_eq env c.sys r q
    dsimp only
    rw [he]
    exact hlog.evictSlot (hl.sub r hr) hlv hq.inside

lemma Linked.page_eq {s : System} {allocated regions : List Region}
    (h : Linked s allocated regions) {r r' : Region} (hr : r ∈ allocated) (hr' : r' ∈ allocated)
    {addr addr' : Nat} (hin : r.Contains addr) (hin' : r'.Contains addr') (hh : r.hndl = r'.hndl)
    (hi : r.index addr = r'.index addr') : addr / 4096 = addr' / 4096 := by
  have hrr : r = r' := by
    by_contra hne
    exact (h.apart r hr r' hr' hne).hndl hh
  subst hrr
  rw [page_index (h.wf r hr) hin, page_index (h.wf r hr) hin', hi]

/-- In every run each read or write request carries the handle the server returned for the
region that contains the address the resolver was called with and the index of its page, and is
granted; distinct pages of the client never share a handle and an offset; and every fault is
resolved. -/
theorem requests_right {mem : Nat → UInt8} {tr : List (Session × Event)} {c : Session}
    (h : Run Session.Step (Session.init mem) tr c) :
    (∀ x ∈ c.sys.log, x.request.action = 1 ∨ x.request.action = 2 → AsksRight c.allocated x) ∧
      (∀ r ∈ c.allocated, ∀ r' ∈ c.allocated, ∀ addr addr', r.Contains addr → r'.Contains addr' →
        (r.hndl, (addr - r.startAddr) / 4096) = (r'.hndl, (addr' - r'.startAddr) / 4096) →
        addr / 4096 = addr' / 4096) ∧
      Completes c := by
  have hl := run_linked h
  have hlog : Linked c.sys c.allocated c.regions ∧ LogRight c.allocated c.sys.log :=
    h.invariant (C := fun _ _ => True)
      (I := fun c => Linked c.sys c.allocated c.regions ∧ LogRight c.allocated c.sys.log)
      (fun _ _ _ hi _ hst => ⟨step_linked hi.1 hst, step_logRight hi.1 hi.2 hst⟩)
      ⟨init_linked mem, by simp [LogRight, Session.init, System.init]⟩ (fun _ _ => trivial)
  refine ⟨?_, ?_, hl.completes⟩
  · intro x hx ha
    refine (hlog.2 x hx).resolve_left (fun h0 => ?_)
    rw [h0] at ha
    exact absurd ha (by decide)
  · intro r hr r' hr' addr addr' hin hin' he
    obtain ⟨hh, hi⟩ := Prod.mk.inj he
    exact hl.page_eq hr hr' hin hin' hh hi

/-- A store to the first page and a load of the second write the first page back and fetch the
second. -/
theorem store_then_load_requests_right :
    ∃ tr c, Run Session.Step (Session.init fun _ => 0) tr c ∧
      c.sys.log.map (fun x => x.request.action) = [0, 2, 1] ∧
      ∀ x ∈ c.sys.log, x.request.action = 1 ∨ x.request.action = 2 → AsksRight c.allocated x := by
  have hs : (firstSystem.store firstEnv 4096 7).isSome = true := rfl
  have hv : ((stored firstEnv 4096 7 firstSystem).load firstEnv 8192).map Prod.fst = some 0 := by
    decide +kernel
  have h := (first_run.snoc (first_store firstRegion_contains.1 hs)).snoc
    (first_load firstRegion_contains.2 hv)
  exact ⟨_, _, h, by decide +kernel, (requests_right h).1⟩

end RemoteMemoryPool.Proofs
