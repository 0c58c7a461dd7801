import RemoteMemoryPool.Proofs.PageStore
import RemoteMemoryPool.Proofs.Session

/-!
# Pages dropped and pages installed

Two operations of the client change which pages are resident: `madvise` with `MADV_DONTNEED`
drops pages, and `UFFDIO_COPY` installs one. `Event.pageOps` lists those an event performs, each
with the state in which it is performed. A fault drops the recorded page of its region, if there
is one, and then installs one page.
-/

namespace RemoteMemoryPool.Proofs

open Interaction

/-- An operation that changes which pages are resident. -/
inductive PageOp
  | discard (addr len : Nat)
  | install (uffd : Int) (dst : Nat) (src : Buf)

def pageOp : ClientOp → Option PageOp
  | .madvise addr len => some (.discard addr len)
  | .uffdioCopy uffd dst src => some (.install uffd dst src)
  | _ => none

/-- The page operations an execution performs, each with the state before it. -/
def pageOps {α : Type} (env : Env) (x : ClientM α) (s : System) : List (System × PageOp) :=
  (x.performedPartial (ClientOp.exec env) s).filterMap (fun y => (pageOp y.2).map (y.1, ·))

def Quiet {α : Type} (x : ClientM α) : Prop := x.OnlyPerforms (fun op => pageOp op = none)

section Programs

variable (env : Env) (s : System)

@[simp] lemma pageOps_pure {α : Type} (a : α) : pageOps env (pure a : ClientM α) s = [] := rfl

@[simp] lemma pageOps_bind {α β : Type} (x : ClientM α) (f : α → ClientM β) :
    pageOps env (x >>= f) s =
      pageOps env x s ++ (s.execute env x).elim [] (fun y => pageOps env (f y.1) y.2) := by
  unfold pageOps System.execute
  rw [Program.performedPartial_bind, List.filterMap_append]
  cases x.runPartial (ClientOp.exec env) s <;> rfl

lemma pageOps_call (op : ClientOp) : pageOps env op.call s = ((pageOp op).map (s, ·)).toList := by
  unfold pageOps ClientOp.call
  rw [Program.performedPartial_perform]
  cases h : pageOp op <;> simp [h]

lemma Quiet.pageOps {α : Type} {x : ClientM α} (hx : Quiet x) : pageOps env x s = [] := by
  apply List.filterMap_eq_nil_iff.mpr
  intro y hy
  rw [Program.OnlyPerforms.performedPartial _ hx s y hy, Option.map_none]

@[simp] lemma pageOps_get : pageOps env Client.get s = [] := pageOps_call env s _

@[simp] lemma pageOps_modify (f : Globals → Globals) : pageOps env (Client.modify f) s = [] :=
  pageOps_call env s _

@[simp] lemma pageOps_lock : pageOps env Client.lock s = [] := pageOps_call env s _

@[simp] lemma pageOps_unlock (site : UnlockSite) : pageOps env (Client.unlock site) s = [] :=
  pageOps_call env s _

@[simp] lemma pageOps_poll (uffd : Int) : pageOps env (Client.poll uffd) s = [] :=
  pageOps_call env s _

@[simp] lemma pageOps_readMsg (uffd : Int) : pageOps env (Client.readMsg uffd) s = [] :=
  pageOps_call env s _

@[simp] lemma pageOps_pthreadCancel (tid : Nat) : pageOps env (Client.pthreadCancel tid) s = [] :=
  pageOps_call env s _

@[simp] lemma pageOps_madvise (addr len : Nat) :
    pageOps env (Client.madvise addr len) s = [(s, .discard addr len)] := pageOps_call env s _

@[simp] lemma pageOps_uffdioCopy (uffd : Int) (dst : Nat) (src : Buf) :
    pageOps env (Client.uffdioCopy uffd dst src) s = [(s, .install uffd dst src)] :=
  pageOps_call env s _

end Programs

lemma quiet_call (op : ClientOp) (h : pageOp op = none) : Quiet op.call := onlyPerforms_call op h

lemma quiet_of_resolverOp {α : Type} {x : ClientM α} (hx : x.OnlyPerforms ResolverOp) : Quiet x := by
  apply hx.mono
  intro op hop
  cases op <;> first | rfl | exact hop.elim

lemma quiet_mapAt {K V : Type} (m : Globals → UnorderedMap K V) (k : K) :
    Quiet (Client.mapAt m k) := quiet_of_resolverOp (onlyPerforms_mapAt m k)

lemma quiet_rmpPagefaultResovler (startAddr faultingAddr isWrite : Nat) (buf : Buf) :
    Quiet (Client.rmpPagefaultResovler startAddr faultingAddr isWrite buf) :=
  quiet_of_resolverOp (onlyPerforms_rmpPagefaultResovler _ _ _ _)

lemma quiet_resolveRead (uffd : Int) (addr op : Nat) :
    Quiet (Uffdman.resolveRead Client.rmpPagefaultResovler uffd addr op) := by
  unfold Uffdman.resolveRead
  split
  · exact .bind (quiet_mapAt _ _) fun _ => quiet_rmpPagefaultResovler _ _ _ _
  · exact .pure _

lemma quiet_recordResolved (uffd : Int) (addr op : Nat) :
    Quiet (Uffdman.recordResolved uffd addr op) :=
  .bind (quiet_call (.modify _) rfl) fun _ => quiet_call (.modify _) rfl

lemma quiet_createPage : Quiet Uffdman.createPage := by
  refine .bind (quiet_call .pageIsNull rfl) fun b => ?_
  split
  · exact quiet_call .mmapPage rfl
  · exact .pure _

lemma quiet_rmpAlloc (npages : UInt32) : Quiet (Client.rmpAlloc npages) := by
  apply rmpAlloc_onlyPerforms
  · rfl
  · rintro op ⟨-, hmadvise, hcopy⟩
    cases op with
    | madvise addr len => exact absurd rfl (hmadvise addr len)
    | uffdioCopy uffd dst src => exact absurd rfl (hcopy uffd dst src)
    | _ => rfl

/-- The system when the resident page of a region is about to be dropped: the page has been
written back if a store opened it. -/
def beforeDiscard (env : Env) (r : Region) (t : Slot) (s : System) : System :=
  if t.byWrite then
    exchange env (some ⟨r.startAddr, r.startAddr + 4096 * t.page, 1⟩)
      (writeRequest env s r.hndl t.page t.contents) s
  else s

def discards (env : Env) (r : Region) (q : Option Slot) (s : System) : List (System × PageOp) :=
  match q with
  | none => []
  | some t => [(beforeDiscard env r t s, .discard (r.startAddr + 4096 * t.page) 4096)]

section Eviction

variable (env : Env) {s : System} {r : Region}

lemma beforeDiscard_resident (t : Slot) : (beforeDiscard env r t s).resident = s.resident := by
  unfold beforeDiscard
  split <;> rfl

lemma serverPage_beforeDiscard {a : Nat} (hl : Live s.host.server r.hndl a r.npages) {t : Slot}
    (ht : t.page < r.npages.toNat) :
    serverPage (beforeDiscard env r t s) r t.page =
      if t.byWrite then t.contents else serverPage s r t.page := by
  unfold beforeDiscard
  split
  · rw [serverPage, exchange, handle_writeRequest env hl ht]
    dsimp only
    rw [UnorderedMap.index_of_find_some _ _ hl.1, memcpyFrom_memcpyTo_self]
  · rfl

lemma pageOps_invalidate (hs : Ready s) (ha : Attached s r) (hw : r.WellFormed) {q : Option Slot}
    (hq : Slotted s r q) :
    pageOps env (Uffdman.invalidatePrevResolvedPage Client.rmpPagefaultResovler r.uffd) s =
      discards env r q s := by
  cases q with
  | none =>
    have haddr : ¬s.globals.uffdPrevResolvedAddr.Contains r.uffd := by
      simp [UnorderedMap.Contains, hq.addr]
    simp [Uffdman.invalidatePrevResolvedPage, haddr, discards]
  | some q =>
    have hc : s.globals.uffdPrevResolvedAddr.Contains r.uffd ∧
        s.globals.uffdPrevResolvedOp.Contains r.uffd ∧ s.globals.uffdStartAddrMap.Contains r.uffd := by
      simp [UnorderedMap.Contains, hq.addr, hq.op, ha.start]
    have hin : q.page < r.npages.toNat := hq.inside q rfl
    have hres : s.resident (r.page q.page) = some q.contents := by
      simpa using hq.resident q.page hin
    have hpg : pgRoundDown (r.startAddr + 4096 * q.page) = r.startAddr + 4096 * q.page := by
      rw [pgRoundDown_eq hw (contains_start hin), index_start]
    simp only [Uffdman.invalidatePrevResolvedPage, pageOps_bind, pageOps_get, execute_get,
      Option.elim_some, List.nil_append, hc, and_self, if_true, Uffdman.invalidate,
      (quiet_mapAt _ _).pageOps, execute_mapAt env s hq.addr, execute_mapAt env s hq.op,
      execute_mapAt env s ha.start]
    cases hqw : q.byWrite with
    | false =>
      simp only [Uffdman.resolveWrite, opOf, Bool.false_eq_true, if_false, ne_eq, not_true_eq_false,
        pageOps_pure, execute_pure, Option.elim_some, List.nil_append, pageOps_madvise, discards,
        beforeDiscard, hqw, hpg]
    | true =>
      simp only [Uffdman.resolveWrite, opOf, if_true, ne_eq, Nat.one_ne_zero, not_false_eq_true,
        (quiet_rmpPagefaultResovler _ _ _ _).pageOps, execute_resolver_write hs ha hw hin hres,
        Option.elim_some, List.nil_append, pageOps_madvise, discards, beforeDiscard, hqw, hpg]

end Eviction

/-- The system when a page is about to be installed for a fault on `addr`: the static page has
been filled if the fault is a read. -/
def beforeInstall (env : Env) (r : Region) (addr : Nat) (byWrite : Bool) (s : System) : System :=
  if byWrite then s
  else { exchange env (some ⟨r.startAddr, addr, 0⟩) (readRequest env s r.hndl (r.index addr)) s with
    page := some (s.host.handle env.serverOs (readRequest env s r.hndl (r.index addr))).1.data }

/-- The page operations of a fault, given what its handler finds when it holds the mutex. -/
def faultEffects (env : Env) (r : Region) (q : Option Slot) (addr : Nat) (byWrite : Bool)
    (s : System) : List (System × PageOp) :=
  discards env r q s ++ [(beforeInstall env r addr byWrite (evictSlot env r q s),
    .install r.uffd (r.startAddr + 4096 * r.index addr) .staticPage)]

section Faults

variable (env : Env) {s : System} {r : Region} {addr : Nat}

lemma beforeInstall_eq {a : Nat} (hl : Live s.host.server r.hndl a r.npages)
    (hin : r.Contains addr) {d : Page} (hd : s.page = some d) (byWrite : Bool) :
    (beforeInstall env r addr byWrite s).bufPage .staticPage =
        some (if byWrite then d else serverPage s r (r.index addr)) ∧
      (beforeInstall env r addr byWrite s).host = s.host := by
  cases byWrite with
  | true => simp [beforeInstall, System.bufPage, hd]
  | false =>
    simp [beforeInstall, System.bufPage, exchange, handle_readRequest env hl (index_lt hin)]

lemma pageOps_resolveFault (hs : Ready s) (ha : Attached s r) (hw : r.WellFormed)
    (hin : r.Contains addr) {d : Page} (hd : s.page = some d) {q : Option Slot}
    (hq : Slotted s r q) (byWrite : Bool) :
    pageOps env (Uffdman.resolveFault Client.rmpPagefaultResovler r.uffd addr (opOf byWrite)) s =
      faultEffects env r q addr byWrite s := by
  obtain ⟨-, -, hat, hf⟩ := evictSlot_kernel env r q s
  have hs' : Ready (evictSlot env r q s) := hs.congr (by simp) (by simp)
  have ha' : Attached (evictSlot env r q s) r := ha.congr (by simp) (by simp) (by simp) hat hf
  have hd' : (evictSlot env r q s).page = some d := by simpa using hd
  have hread : (evictSlot env r q s).execute env
      (Uffdman.resolveRead Client.rmpPagefaultResovler r.uffd addr (opOf byWrite)) =
      some ((), beforeInstall env r addr byWrite (evictSlot env r q s)) :=
    execute_resolveRead env hs' ha' hw hin hd' byWrite
  -- recording the page has no page operation, whether or not the copy succeeded
  have hrecord (o : Option (Int × System)) : o.elim [] (fun y =>
      pageOps env (if y.1 = -1 then pure false else do
        Uffdman.recordResolved r.uffd addr (opOf byWrite)
        return true) y.2) = [] := by
    cases o with
    | none => rfl
    | some y =>
      rw [Option.elim_some]
      split
      · rfl
      · rw [pageOps_bind, (quiet_recordResolved _ _ _).pageOps]
        cases y.2.execute env (Uffdman.recordResolved r.uffd addr (opOf byWrite)) <;> rfl
  rw [Uffdman.resolveFault, pageOps_bind, pageOps_invalidate env hs ha hw hq,
    execute_invalidate hs ha hw hq, Option.elim_some, pageOps_bind,
    (quiet_resolveRead _ _ _).pageOps, hread, Option.elim_some, List.nil_append, pageOps_bind,
    pageOps_uffdioCopy, pgRoundDown_eq hw hin, hrecord, List.append_nil, faultEffects]

section Iteration

variable (resolver : (startAddr faultingAddr isWrite : Nat) → Buf → ClientM Unit)

lemma pageOps_handlePagefault (uffd : Int) (hl : s.locked = false) :
    pageOps env (Uffdman.handlePagefault resolver uffd) s =
      pageOps env (Uffdman.resolveFault resolver uffd s.globals.msg.address
        (s.globals.msg.flags &&& uffdPagefaultFlagWrite)) { s with locked := true } := by
  simp only [Uffdman.handlePagefault, pageOps_bind, pageOps_get, execute_get, Option.elim_some,
    List.nil_append, pageOps_lock, execute_lock, ClientOp.exec, hl, Bool.false_eq_true, if_false,
    pageOps_unlock, execute_unlock, pageOps_pure]
  cases System.execute env (Uffdman.resolveFault resolver uffd s.globals.msg.address
    (s.globals.msg.flags &&& uffdPagefaultFlagWrite)) { s with locked := true } <;> simp

lemma pageOps_iteration {uffd : Int} {m : UffdMsg} (hp : s.pending uffd = some m)
    (he : m.event = .pagefault) :
    pageOps env (Uffdman.faultHandlerIteration resolver uffd) s =
      pageOps env (Uffdman.handlePagefault resolver uffd)
        { s with globals.msg := m, pending := Function.update s.pending uffd none } := by
  simp [Uffdman.faultHandlerIteration, ClientOp.exec, hp, he]

end Iteration

/-- The page operations of the handler iteration that resolves a fault on `addr`. -/
def faultOps (isWrite : Bool) (addr : Nat) (s : System) : List (System × PageOp) :=
  match s.uffdAt (addr / 4096) with
  | none => []
  | some uffd =>
    match s.handlerOf uffd with
    | none => []
    | some _ =>
      let msg : UffdMsg := ⟨.pagefault, if isWrite then uffdPagefaultFlagWrite else 0, addr⟩
      pageOps env (Uffdman.faultHandlerIteration Client.rmpPagefaultResovler uffd)
        { s with pending := Function.update s.pending uffd (some msg) }

/-- The page operations of an access: none if the page is resident. -/
def accessOps (isWrite : Bool) (addr : Nat) (s : System) : List (System × PageOp) :=
  match s.resident (addr / 4096) with
  | some _ => []
  | none => faultOps env isWrite addr s

/-- A fault drops the recorded page of its region and installs one page. -/
lemma faultOps_eq (hs : Ready s) (hl : s.locked = false) (ha : Attached s r) (hw : r.WellFormed)
    (hin : r.Contains addr) {d : Page} (hd : s.page = some d) {q : Option Slot}
    (hq : Slotted s r q) (byWrite : Bool) :
    faultOps env byWrite addr s =
      faultEffects env r q addr byWrite (faultTaken r.uffd byWrite addr s) := by
  have hat : s.uffdAt (addr / 4096) = some r.uffd := by
    rw [page_index hw hin]
    exact ha.registered _ (index_lt hin)
  have hread : pageOps env (Uffdman.faultHandlerIteration Client.rmpPagefaultResovler r.uffd)
      { s with pending := Function.update s.pending r.uffd (some ⟨.pagefault, opOf byWrite, addr⟩) } =
      pageOps env (Uffdman.handlePagefault Client.rmpPagefaultResovler r.uffd)
        (faultRead r.uffd byWrite addr s) := by
    rw [pageOps_iteration env _ (Function.update_self _ _ _) rfl]
    simp [faultRead]
  have hmutex := pageOps_handlePagefault env Client.rmpPagefaultResovler r.uffd
    (s := faultRead r.uffd byWrite addr s) hl
  have hflags : (faultRead r.uffd byWrite addr s).globals.msg.flags &&& uffdPagefaultFlagWrite =
      opOf byWrite := opOf_and byWrite
  rw [hflags] at hmutex
  obtain ⟨tid, htid⟩ := Option.ne_none_iff_exists'.mp ha.handler
  simp only [faultOps, hat, htid]
  exact (hread.trans hmutex).trans (pageOps_resolveFault env (s := faultTaken r.uffd byWrite addr s)
    (hs.congr rfl rfl) (ha.congr rfl rfl rfl rfl rfl) hw hin hd (slotted_faultTaken hq byWrite)
    byWrite)

end Faults

def Event.pageOps (s : System) : Event → List (System × PageOp)
  | .alloc env npages _ =>
    Proofs.pageOps env (Client.rmpAlloc npages) s ++
      match s.execute env (Client.rmpAlloc npages) with
      | some (.addr _, s) => Proofs.pageOps env Uffdman.createPage s
      | _ => []
  | .load env _ addr _ => accessOps env false addr s
  | .store env _ addr _ => accessOps env true addr s
  | .unregister env r =>
    Proofs.pageOps env (Uffdman.unregisterRegion Client.rmpPagefaultResovler r.startAddr) s

section Events

variable (env : Env) {s : System} {r : Region}

lemma pageOps_alloc (npages : UInt32) : (Event.alloc env npages r).pageOps s = [] := by
  rw [Event.pageOps, (quiet_rmpAlloc npages).pageOps, List.nil_append]
  split
  · exact quiet_createPage.pageOps env _
  · rfl

lemma pageOps_unregister (hs : Ready s) (ha : Attached s r) (hw : r.WellFormed) {q : Option Slot}
    (hq : Slotted s r q) : (Event.unregister env r).pageOps s = discards env r q s := by
  have hc : s.globals.startAddrUffdMap.Contains r.startAddr := by
    simp [UnorderedMap.Contains, ha.uffd]
  simp only [Event.pageOps, Uffdman.unregisterRegion, pageOps_bind, pageOps_get, execute_get,
    Option.elim_some, List.nil_append, hc, if_true, (quiet_mapAt _ _).pageOps,
    execute_mapAt env s ha.uffd, pageOps_invalidate env hs ha hw hq, execute_invalidate hs ha hw hq,
    pageOps_modify, execute_modify, evictSlot_globals]
  split
  · simp only [pageOps_bind, (quiet_mapAt _ _).pageOps, pageOps_modify, pageOps_pthreadCancel]
    cases System.execute env (Client.mapAt Globals.addrTidMap r.startAddr) _ <;> simp
  · simp

lemma accessOps_hit {addr : Nat} (hres : s.resident (addr / 4096) ≠ none) (byWrite : Bool) :
    accessOps env byWrite addr s = [] := by
  obtain ⟨d, hd⟩ := Option.ne_none_iff_exists'.mp hres
  rw [accessOps, hd]

variable {allocated regions : List Region}

lemma Linked.accessOps_miss (h : Linked s allocated regions) (hr : r ∈ regions) {addr : Nat}
    (hin : r.Contains addr) (hres : s.resident (addr / 4096) = none) {q : Option Slot}
    (hq : Slotted s r q) (byWrite : Bool) :
    accessOps env byWrite addr s =
      faultEffects env r q addr byWrite (faultTaken r.uffd byWrite addr s) := by
  obtain ⟨hw, ha, -, ⟨d, hd⟩, -⟩ := h.obtain hr
  rw [accessOps, hres]
  exact faultOps_eq env h.ready h.unlocked ha hw hin hd hq byWrite

lemma Linked.resident_eq_none_iff (h : Linked s allocated regions) (hr : r ∈ regions) {addr : Nat}
    (hin : r.Contains addr) {q : Option Slot} (hq : Slotted s r q) :
    s.resident (addr / 4096) = none ↔ ∀ t, q = some t → t.page ≠ r.index addr := by
  rw [page_index (h.wf r (h.sub r hr)) hin, hq.resident _ (index_lt hin)]
  cases q with
  | none => simp
  | some t => simp

lemma Linked.resident_of_hit (h : Linked s allocated regions) (hr : r ∈ regions) {addr : Nat}
    (hin : r.Contains addr) {t : Slot} (hq : Slotted s r (some t)) (ht : t.page = r.index addr) :
    (s.resident (addr / 4096)).isSome = true := by
  rw [Option.isSome_iff_ne_none, Ne, h.resident_eq_none_iff hr hin hq]
  exact fun hmiss => hmiss t rfl ht

end Events

/-- The page that a load which faults reads from the server, with its region. -/
def fetched : Session × Event → Option (Region × Page)
  | (c, .load env r addr _) =>
    if (c.sys.resident (addr / 4096)).isNone then
      some (r, serverPage (loaded env addr c.sys) r (r.index addr))
    else none
  | _ => none

def fetches (tr : List (Session × Event)) : List (Region × Page) := tr.filterMap fetched

lemma fetched_load {c : Session} (h : Linked c.sys c.allocated c.regions) {r : Region}
    (hr : r ∈ c.regions) {env : Env} {addr : Nat} (hin : r.Contains addr) {d : Page} {s' : System}
    (hf : c.sys.fetch env false addr = some (d, s')) (hF : Fetched env r addr false c.sys d s')
    (value : UInt8) :
    fetched (c, .load env r addr value) =
      if (c.sys.resident (addr / 4096)).isSome then none else some (r, d) := by
  have hloaded : loaded env addr c.sys = s' := by simp [loaded, System.load, hf]
  cases hF with
  | @hit t hq ht =>
    have hres := h.resident_of_hit hr hin hq ht
    simp [fetched, hres, Option.isSome_iff_ne_none.mp hres]
  | @miss q hq hmiss d hd =>
    have hres := (h.resident_eq_none_iff hr hin hq).mpr hmiss
    obtain ⟨-, -, -, -, a, hl⟩ := h.obtain hr
    obtain ⟨-, -, hhost⟩ := resolved_eq env hl hin hd hq false
    simp [fetched, hres, hloaded, serverPage_congr hhost, installedPage]

end RemoteMemoryPool.Proofs
