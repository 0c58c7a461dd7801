import RemoteMemoryPool.Lib.Pager
import RemoteMemoryPool.Model.System
import RemoteMemoryPool.Proofs.ServerSpec

/-!
# What the client's functions do

For a region whose bookkeeping is in order, the state the client, its kernel and the server
are in after a page is written back (`evictSlot`), after one is opened (`openSlot`), and
after a whole iteration of the fault handler (`fault_eq`).
-/

namespace RemoteMemoryPool.Proofs

open Interaction

/-- A region returned by `rmp_alloc`: its start, the handle the server returned for it, and
the file descriptor it is registered with. -/
structure Region where
  startAddr : Nat
  npages : UInt32
  hndl : Handle
  uffd : Int
  deriving DecidableEq

def Region.page (r : Region) (i : Nat) : Nat := r.startAddr / 4096 + i

def Region.Contains (r : Region) (addr : Nat) : Prop :=
  r.startAddr ≤ addr ∧ addr < r.startAddr + 4096 * r.npages.toNat

def Region.index (r : Region) (addr : Nat) : Nat := (addr - r.startAddr) / 4096

abbrev Slot := Paging.Slot Nat (Fin 4096) UInt8

section Execute

variable (env : Env) (s : System)

@[simp] lemma execute_pure {α : Type} (a : α) : s.execute env (pure a) = some (a, s) := rfl

@[simp] lemma execute_bind {α β : Type} (x : ClientM α) (f : α → ClientM β) :
    s.execute env (x >>= f) = (s.execute env x).bind (fun y => y.2.execute env (f y.1)) :=
  Program.runPartial_bind _ _ _ _

lemma execute_call (op : ClientOp) : s.execute env op.call = op.exec env s :=
  Program.runPartial_perform _ _ _

@[simp] lemma execute_get : s.execute env Client.get = some (s.globals, s) :=
  execute_call env s _

@[simp] lemma execute_modify (f : Globals → Globals) :
    s.execute env (Client.modify f) = some ((), { s with globals := f s.globals }) :=
  execute_call env s _

@[simp] lemma execute_lock : s.execute env Client.lock =
    ClientOp.exec env .lock s := execute_call env s _

@[simp] lemma execute_unlock (site : UnlockSite) : s.execute env (Client.unlock site) =
    ClientOp.exec env (.unlock site) s := execute_call env s _

@[simp] lemma execute_poll (uffd : Int) : s.execute env (Client.poll uffd) =
    ClientOp.exec env (.poll uffd) s := execute_call env s _

@[simp] lemma execute_readMsg (uffd : Int) : s.execute env (Client.readMsg uffd) =
    ClientOp.exec env (.readMsg uffd) s := execute_call env s _

@[simp] lemma execute_pageIsNull : s.execute env Client.pageIsNull =
    ClientOp.exec env .pageIsNull s := execute_call env s _

@[simp] lemma execute_mmapPage : s.execute env Client.mmapPage =
    ClientOp.exec env .mmapPage s := execute_call env s _

@[simp] lemma execute_packetObject : s.execute env Client.packetObject =
    ClientOp.exec env .packetObject s := execute_call env s _

@[simp] lemma execute_loadPage (src : Buf) : s.execute env (Client.loadPage src) =
    ClientOp.exec env (.loadPage src) s := execute_call env s _

@[simp] lemma execute_storePage (dst : Buf) (data : Page) :
    s.execute env (Client.storePage dst data) =
    ClientOp.exec env (.storePage dst data) s := execute_call env s _

@[simp] lemma execute_enterResolver (call : ResolverCall) :
    s.execute env (Client.enterResolver call) =
    ClientOp.exec env (.enterResolver call) s := execute_call env s _

@[simp] lemma execute_send (packet : Packet) : s.execute env (Client.send packet) =
    ClientOp.exec env (.send packet) s := execute_call env s _

@[simp] lemma execute_recv : s.execute env Client.recv =
    ClientOp.exec env .recv s := execute_call env s _

@[simp] lemma execute_mmap (len : Nat) : s.execute env (Client.mmap len) =
    ClientOp.exec env (.mmap len) s := execute_call env s _

@[simp] lemma execute_userfaultfd : s.execute env Client.userfaultfd =
    ClientOp.exec env .userfaultfd s := execute_call env s _

@[simp] lemma execute_uffdioApi (uffd : Int) : s.execute env (Client.uffdioApi uffd) =
    ClientOp.exec env (.uffdioApi uffd) s := execute_call env s _

@[simp] lemma execute_uffdioRegister (uffd : Int) (start len : Nat) :
    s.execute env (Client.uffdioRegister uffd start len) =
    ClientOp.exec env (.uffdioRegister uffd start len) s := execute_call env s _

@[simp] lemma execute_uffdioCopy (uffd : Int) (dst : Nat) (src : Buf) :
    s.execute env (Client.uffdioCopy uffd dst src) =
    ClientOp.exec env (.uffdioCopy uffd dst src) s := execute_call env s _

@[simp] lemma execute_madvise (addr len : Nat) : s.execute env (Client.madvise addr len) =
    ClientOp.exec env (.madvise addr len) s := execute_call env s _

@[simp] lemma execute_pthreadCreate (uffd : Int) : s.execute env (Client.pthreadCreate uffd) =
    ClientOp.exec env (.pthreadCreate uffd) s := execute_call env s _

@[simp] lemma execute_pthreadCancel (tid : Nat) : s.execute env (Client.pthreadCancel tid) =
    ClientOp.exec env (.pthreadCancel tid) s := execute_call env s _

lemma execute_mapAt {K V : Type} {m : Globals → UnorderedMap K V} {k : K} {v : V}
    (h : (m s.globals).find k = some v) : s.execute env (Client.mapAt m k) = some (v, s) := by
  simp [Client.mapAt, h]

end Execute

def writeRequest (env : Env) (s : System) (hndl : Handle) (i : Nat) (d : Page) : Packet :=
  { env.packetObject s.log.length with
    action := 2
    data := d
    size := 4096
    offset := UInt32.ofNat i
    error := 0
    hndl := hndl }

def readRequest (env : Env) (s : System) (hndl : Handle) (i : Nat) : Packet :=
  { env.packetObject s.log.length with
    action := 1
    offset := UInt32.ofNat i
    size := 4096
    error := 0
    hndl := hndl }

def allocRequest (env : Env) (s : System) (npages : UInt32) : Packet :=
  { env.packetObject s.log.length with
    action := 0
    npages := npages
    size := 4096 }

/-- The system after a request has been sent and answered. -/
def exchange (env : Env) (call : Option ResolverCall) (req : Packet) (s : System) : System :=
  { s with
    resolving := none
    log := s.log ++ [⟨call, req, (s.host.handle env.serverOs req).1⟩]
    host := (s.host.handle env.serverOs req).2 }

section Requests

variable {env : Env} {s : System}

lemma execute_rmpWritePage (hc : s.globals.connected = true) (hr : s.requests = []) {buf : Buf}
    {d : Page} (hd : s.bufPage buf = some d) (hndl : Handle) (i : Nat) :
    s.execute env (Client.rmpWritePage hndl i buf) =
      some ((), exchange env s.resolving (writeRequest env s hndl i d) s) := by
  simp [Client.rmpWritePage, hc, ClientOp.exec, hd, System.serve, hr, exchange, writeRequest]

lemma execute_rmpReadPage (hc : s.globals.connected = true) (hr : s.requests = []) {d : Page}
    (hd : s.page = some d) (hndl : Handle) (i : Nat) :
    s.execute env (Client.rmpReadPage hndl i .staticPage) =
      some ((), { exchange env s.resolving (readRequest env s hndl i) s with
        page := some (s.host.handle env.serverOs (readRequest env s hndl i)).1.data }) := by
  simp [Client.rmpReadPage, hc, ClientOp.exec, hd, System.serve, hr, exchange, readRequest]

end Requests

/-! ### The operations of the page resolver -/

/-- The operations the page resolver may perform. -/
def ResolverOp : ClientOp → Prop
  | .get => True
  | .terminate => True
  | .packetObject => True
  | .loadPage _ => True
  | .storePage _ _ => True
  | .enterResolver _ => True
  | .send _ => True
  | .recv => True
  | _ => False

lemma onlyPerforms_call {P : ClientOp → Prop} (op : ClientOp) (h : P op) :
    op.call.OnlyPerforms P := ⟨h, fun _ => trivial⟩

lemma onlyPerforms_mapAt {K V : Type} (m : Globals → UnorderedMap K V) (k : K) :
    (Client.mapAt m k).OnlyPerforms ResolverOp := by
  refine .bind (onlyPerforms_call .get trivial) fun g => ?_
  cases (m g).find k with
  | none => exact .bind (onlyPerforms_call .terminate trivial) fun r => r.elim
  | some v => exact .pure v

lemma onlyPerforms_rmpWritePage (hndl : Handle) (i : Nat) (buf : Buf) :
    (Client.rmpWritePage hndl i buf).OnlyPerforms ResolverOp := by
  refine .bind (onlyPerforms_call .get trivial) fun g => ?_
  split
  · refine .bind (onlyPerforms_call .packetObject trivial) fun pkt => ?_
    refine .bind (onlyPerforms_call (.loadPage buf) trivial) fun data => ?_
    exact .bind (onlyPerforms_call (.send _) trivial) fun _ =>
      .bind (onlyPerforms_call .recv trivial) fun _ => .pure _
  · exact .pure _

lemma onlyPerforms_rmpReadPage (hndl : Handle) (i : Nat) (buf : Buf) :
    (Client.rmpReadPage hndl i buf).OnlyPerforms ResolverOp := by
  refine .bind (onlyPerforms_call .get trivial) fun g => ?_
  split
  · refine .bind (onlyPerforms_call .packetObject trivial) fun pkt => ?_
    exact .bind (onlyPerforms_call (.send _) trivial) fun _ =>
      .bind (onlyPerforms_call .recv trivial) fun _ => onlyPerforms_call (.storePage _ _) trivial
  · exact .pure _

/-- The page resolver changes no map and moves the contents of pages only. -/
lemma onlyPerforms_rmpPagefaultResovler (startAddr faultingAddr isWrite : Nat) (buf : Buf) :
    (Client.rmpPagefaultResovler startAddr faultingAddr isWrite buf).OnlyPerforms ResolverOp := by
  refine .bind (onlyPerforms_call (.enterResolver _) trivial) fun _ => ?_
  refine .bind (onlyPerforms_mapAt _ _) fun hndl => ?_
  split
  · exact onlyPerforms_rmpWritePage _ _ _
  · exact onlyPerforms_rmpReadPage _ _ _

/-- A region the client's `mmap` may return. -/
structure Region.WellFormed (r : Region) : Prop where
  aligned : r.startAddr % 4096 = 0
  bound : r.startAddr + 4096 * r.npages.toNat ≤ 2 ^ 64
  npages_ne : r.npages ≠ 0

section Indices

variable {r : Region} {addr : Nat}

lemma index_lt (ha : r.Contains addr) : r.index addr < r.npages.toNat := by
  obtain ⟨h1, h2⟩ := ha
  unfold Region.index
  omega

lemma contains_start {i : Nat} (hi : i < r.npages.toNat) : r.Contains (r.startAddr + 4096 * i) := by
  constructor <;> omega

lemma index_start (i : Nat) : r.index (r.startAddr + 4096 * i) = i := by
  unfold Region.index
  omega

/-- The index the resolver computes is the page index, for every page of a region. -/
lemma pageOffset_eq (hw : r.WellFormed) (ha : r.Contains addr) :
    Client.pageOffset r.startAddr addr = r.index addr := by
  obtain ⟨h1, h2⟩ := ha
  have hal := hw.aligned
  have hbd := hw.bound
  have hoff : (pgRoundDown addr + 2 ^ 64 - r.startAddr) % 2 ^ 64 = pgRoundDown addr - r.startAddr := by
    unfold pgRoundDown
    omega
  have hidx : (pgRoundDown addr - r.startAddr) / 4096 = r.index addr := by
    unfold pgRoundDown Region.index
    omega
  unfold Client.pageOffset
  simp only [hoff, hidx]
  apply Rounding.roundToFormat_of_lt
  unfold Region.index
  omega

lemma page_index (hw : r.WellFormed) (ha : r.Contains addr) : addr / 4096 = r.page (r.index addr) := by
  obtain ⟨h1, h2⟩ := ha
  have hal := hw.aligned
  unfold Region.index Region.page
  omega

lemma pgRoundDown_eq (hw : r.WellFormed) (ha : r.Contains addr) :
    pgRoundDown addr = r.startAddr + 4096 * r.index addr := by
  obtain ⟨h1, h2⟩ := ha
  have hal := hw.aligned
  unfold Region.index pgRoundDown
  omega

lemma page_start (hw : r.WellFormed) (i : Nat) : (r.startAddr + 4096 * i) / 4096 = r.page i := by
  have hal := hw.aligned
  unfold Region.page
  omega

lemma start_aligned (hw : r.WellFormed) (i : Nat) : (r.startAddr + 4096 * i) % 4096 = 0 := by
  have hal := hw.aligned
  omega

lemma pageIn_start (hw : r.WellFormed) (i p : Nat) :
    pageIn (r.startAddr + 4096 * i) 4096 p = true ↔ p = r.page i := by
  have hal := hw.aligned
  unfold Region.page
  simp only [pageIn, Bool.and_eq_true, decide_eq_true_eq]
  omega

end Indices

lemma page_inj {r : Region} {i j : Nat} : r.page i = r.page j ↔ i = j := by
  unfold Region.page
  omega

/-! ### Eviction and resolution -/

/-- No operation of the client is in progress. -/
structure Ready (s : System) : Prop where
  connected : s.globals.connected = true
  idle : s.requests = []

/-- The maps and the kernel know a registered region. -/
structure Attached (s : System) (r : Region) : Prop where
  hndl : s.globals.addrHndlMap.find r.startAddr = some r.hndl
  start : s.globals.uffdStartAddrMap.find r.uffd = some r.startAddr
  uffd : s.globals.startAddrUffdMap.find r.startAddr = some r.uffd
  handler : s.handlerOf r.uffd ≠ none
  registered : ∀ i, i < r.npages.toNat → s.uffdAt (r.page i) = some r.uffd

def opOf (byWrite : Bool) : Nat := if byWrite then 1 else 0

/-- The resident page of a region, as recorded for the next fault. -/
structure Slotted (s : System) (r : Region) (q : Option Slot) : Prop where
  addr : s.globals.uffdPrevResolvedAddr.find r.uffd =
    q.map (fun q => r.startAddr + 4096 * q.page)
  op : s.globals.uffdPrevResolvedOp.find r.uffd = q.map (fun q => opOf q.byWrite)
  inside : ∀ t, q = some t → t.page < r.npages.toNat
  resident : ∀ i, i < r.npages.toNat →
    s.resident (r.page i) = q.bind (fun q => if q.page = i then some q.contents else none)

/-- The system after the resident page of a region has been evicted. -/
def evictSlot (env : Env) (r : Region) (q : Option Slot) (s : System) : System :=
  match q with
  | none => s
  | some q =>
    let s' := if q.byWrite then
        exchange env (some ⟨r.startAddr, r.startAddr + 4096 * q.page, 1⟩)
          (writeRequest env s r.hndl q.page q.contents) s
      else s
    { s' with resident := Function.update s.resident (r.page q.page) none }

section EvictFields

variable (env : Env) (r : Region) (q : Option Slot) (s : System)

lemma evictSlot_frame : ∃ resolving log host resident, evictSlot env r q s =
    { s with resolving := resolving, log := log, host := host, resident := resident } := by
  unfold evictSlot
  split
  · exact ⟨s.resolving, s.log, s.host, s.resident, rfl⟩
  · dsimp only
    split
    · exact ⟨_, _, _, _, rfl⟩
    · exact ⟨s.resolving, s.log, s.host, _, rfl⟩

@[simp] lemma evictSlot_globals : (evictSlot env r q s).globals = s.globals := by
  obtain ⟨_, _, _, _, h⟩ := evictSlot_frame env r q s
  rw [h]

@[simp] lemma evictSlot_page : (evictSlot env r q s).page = s.page := by
  obtain ⟨_, _, _, _, h⟩ := evictSlot_frame env r q s
  rw [h]

@[simp] lemma evictSlot_requests : (evictSlot env r q s).requests = s.requests := by
  obtain ⟨_, _, _, _, h⟩ := evictSlot_frame env r q s
  rw [h]

lemma evictSlot_locked : (evictSlot env r q s).locked = s.locked := by
  obtain ⟨_, _, _, _, h⟩ := evictSlot_frame env r q s
  rw [h]

lemma evictSlot_kernel :
    (evictSlot env r q s).mapped = s.mapped ∧ (evictSlot env r q s).openFds = s.openFds ∧
      (evictSlot env r q s).uffdAt = s.uffdAt ∧ (evictSlot env r q s).handlerOf = s.handlerOf := by
  obtain ⟨_, _, _, _, h⟩ := evictSlot_frame env r q s
  rw [h]
  exact ⟨rfl, rfl, rfl, rfl⟩

lemma evictSlot_resident (t : Slot) :
    (evictSlot env r (some t) s).resident = Function.update s.resident (r.page t.page) none := rfl

end EvictFields

section Eviction

variable {env : Env} {s : System} {r : Region} {q : Slot}

lemma madvise_eq (hw : r.WellFormed) (s : System) (i : Nat) :
    ClientOp.exec env (.madvise (pgRoundDown (r.startAddr + 4096 * i)) 4096) s =
      some ((), { s with resident := Function.update s.resident (r.page i) none }) := by
  have hpg : pgRoundDown (r.startAddr + 4096 * i) = r.startAddr + 4096 * i := by
    have := start_aligned hw i
    unfold pgRoundDown
    omega
  have hres : (fun p => if pageIn (r.startAddr + 4096 * i) 4096 p = true then none
      else s.resident p) = Function.update s.resident (r.page i) none := by
    funext p
    simp only [pageIn_start hw, Function.update_apply]
  rw [hpg, ClientOp.exec, hres]

lemma execute_resolver_write (hs : Ready s) (ha : Attached s r) (hw : r.WellFormed) {i : Nat}
    (hi : i < r.npages.toNat) {d : Page} (hd : s.resident (r.page i) = some d) :
    s.execute env (Client.rmpPagefaultResovler r.startAddr (r.startAddr + 4096 * i) 1
        (.mem (r.startAddr + 4096 * i))) =
      some ((), exchange env (some ⟨r.startAddr, r.startAddr + 4096 * i, 1⟩)
        (writeRequest env s r.hndl i d) s) := by
  have hoff : Client.pageOffset r.startAddr (r.startAddr + 4096 * i) = i := by
    rw [pageOffset_eq hw (contains_start hi), index_start]
  have hbuf : System.bufPage { s with resolving := some ⟨r.startAddr, r.startAddr + 4096 * i, 1⟩ }
      (.mem (r.startAddr + 4096 * i)) = some d := by
    simp only [System.bufPage, start_aligned hw, page_start hw, if_true, hd]
  simp only [Client.rmpPagefaultResovler, execute_bind, execute_enterResolver, ClientOp.exec,
    Option.bind_some, ne_eq, Nat.one_ne_zero, not_false_eq_true, if_true, hoff]
  rw [execute_mapAt _ _ (by exact ha.hndl), Option.bind_some,
    execute_rmpWritePage (by exact hs.connected) (by exact hs.idle) hbuf]
  rfl

lemma execute_resolver_read (hs : Ready s) (ha : Attached s r) (hw : r.WellFormed) {addr : Nat}
    (hin : r.Contains addr) {d : Page} (hd : s.page = some d) :
    s.execute env (Client.rmpPagefaultResovler r.startAddr addr 0 .staticPage) =
      some ((), { exchange env (some ⟨r.startAddr, addr, 0⟩)
          (readRequest env s r.hndl (r.index addr)) s with
        page := some (s.host.handle env.serverOs
          (readRequest env s r.hndl (r.index addr))).1.data }) := by
  simp only [Client.rmpPagefaultResovler, execute_bind, execute_enterResolver, ClientOp.exec,
    Option.bind_some, ne_eq, not_true_eq_false, if_false, pageOffset_eq hw hin]
  rw [execute_mapAt _ _ (by exact ha.hndl), Option.bind_some,
    execute_rmpReadPage (by exact hs.connected) (by exact hs.idle) (by exact hd)]
  rfl

/-- `invalidate_prev_resolved_page` evicts the resident page of the region. -/
lemma execute_invalidate (hs : Ready s) (ha : Attached s r) (hw : r.WellFormed) {q : Option Slot}
    (hq : Slotted s r q) :
    s.execute env (Uffdman.invalidatePrevResolvedPage Client.rmpPagefaultResovler r.uffd) =
      some ((), evictSlot env r q s) := by
  cases q with
  | none =>
    have haddr : ¬s.globals.uffdPrevResolvedAddr.Contains r.uffd := by
      simp [UnorderedMap.Contains, hq.addr]
    simp [Uffdman.invalidatePrevResolvedPage, haddr, evictSlot]
  | some q =>
    have hc : s.globals.uffdPrevResolvedAddr.Contains r.uffd ∧
        s.globals.uffdPrevResolvedOp.Contains r.uffd ∧ s.globals.uffdStartAddrMap.Contains r.uffd := by
      simp [UnorderedMap.Contains, hq.addr, hq.op, ha.start]
    have hin : q.page < r.npages.toNat := hq.inside q rfl
    have hres : s.resident (r.page q.page) = some q.contents := by
      simpa using hq.resident q.page hin
    simp only [Uffdman.invalidatePrevResolvedPage, execute_bind, execute_get, Option.bind_some, hc,
      and_self, if_true, Uffdman.invalidate, execute_mapAt env s hq.addr,
      execute_mapAt env s hq.op, execute_mapAt env s ha.start]
    cases hqw : q.byWrite with
    | false =>
      simp only [Uffdman.resolveWrite, opOf, Bool.false_eq_true, if_false, ne_eq, not_true_eq_false,
        execute_pure, Option.bind_some, execute_madvise, madvise_eq hw, evictSlot, hqw]
    | true =>
      simp only [Uffdman.resolveWrite, opOf, if_true, ne_eq, Nat.one_ne_zero, not_false_eq_true,
        execute_resolver_write hs ha hw hin hres, Option.bind_some, execute_madvise,
        madvise_eq hw, evictSlot, hqw]
      rfl

end Eviction

/-- The system after a fault on `addr` has been resolved, given that no page of its region
is resident. -/
def openSlot (env : Env) (r : Region) (addr : Nat) (byWrite : Bool) (s : System) : System :=
  let s' := if byWrite then s
    else { exchange env (some ⟨r.startAddr, addr, 0⟩) (readRequest env s r.hndl (r.index addr)) s with
      page := some (s.host.handle env.serverOs (readRequest env s r.hndl (r.index addr))).1.data }
  { s' with
    resident := Function.update s.resident (r.page (r.index addr)) s'.page
    globals.uffdPrevResolvedAddr :=
      s.globals.uffdPrevResolvedAddr.set r.uffd (r.startAddr + 4096 * r.index addr)
    globals.uffdPrevResolvedOp := s.globals.uffdPrevResolvedOp.set r.uffd (opOf byWrite) }

section Faults

variable (env : Env) {s : System} {r : Region}

lemma execute_resolveRead (hs : Ready s) (ha : Attached s r) (hw : r.WellFormed) {addr : Nat}
    (hin : r.Contains addr) {d : Page} (hd : s.page = some d) (byWrite : Bool) :
    s.execute env (Uffdman.resolveRead Client.rmpPagefaultResovler r.uffd addr (opOf byWrite)) =
      some ((), if byWrite then s
        else { exchange env (some ⟨r.startAddr, addr, 0⟩)
            (readRequest env s r.hndl (r.index addr)) s with
          page := some (s.host.handle env.serverOs
            (readRequest env s r.hndl (r.index addr))).1.data }) := by
  cases byWrite with
  | true => rfl
  | false =>
    simp only [Uffdman.resolveRead, opOf, Bool.false_eq_true, if_false, if_true, execute_bind,
      execute_mapAt env s ha.start, Option.bind_some, execute_resolver_read hs ha hw hin hd]

lemma execute_open (hs : Ready s) (ha : Attached s r) (hw : r.WellFormed) {addr : Nat}
    (hin : r.Contains addr) {d : Page} (hd : s.page = some d)
    (hres : s.resident (r.page (r.index addr)) = none) (byWrite : Bool) :
    s.execute env (do
        Uffdman.resolveRead Client.rmpPagefaultResovler r.uffd addr (opOf byWrite)
        if (← Client.uffdioCopy r.uffd (pgRoundDown addr) .staticPage) = -1 then
          return false
        else
          Uffdman.recordResolved r.uffd addr (opOf byWrite)
          return true) =
      some (true, openSlot env r addr byWrite s) := by
  have hat := ha.registered _ (index_lt hin)
  rw [execute_bind, execute_resolveRead env hs ha hw hin hd, Option.bind_some]
  simp only [execute_bind, execute_uffdioCopy, ClientOp.exec, pgRoundDown_eq hw hin, page_start hw]
  cases byWrite with
  | true =>
    simp [System.bufPage, hd, hat, hres, Uffdman.recordResolved, openSlot, pgRoundDown_eq hw hin]
  | false =>
    simp [System.bufPage, hat, hres, Uffdman.recordResolved, openSlot, pgRoundDown_eq hw hin,
      exchange]

lemma Ready.congr {s' : System} (h : Ready s) (hg : s'.globals.connected = s.globals.connected)
    (hr : s'.requests = s.requests) : Ready s' :=
  ⟨hg.trans h.connected, hr.trans h.idle⟩

lemma Attached.congr {s' : System} (h : Attached s r)
    (hh : s'.globals.addrHndlMap = s.globals.addrHndlMap)
    (hs : s'.globals.uffdStartAddrMap = s.globals.uffdStartAddrMap)
    (hu : s'.globals.startAddrUffdMap = s.globals.startAddrUffdMap)
    (hat : s'.uffdAt = s.uffdAt) (hf : s'.handlerOf = s.handlerOf) : Attached s' r := by
  refine ⟨?_, ?_, ?_, ?_, ?_⟩
  · rw [hh]
    exact h.hndl
  · rw [hs]
    exact h.start
  · rw [hu]
    exact h.uffd
  · rw [hf]
    exact h.handler
  · rw [hat]
    exact h.registered

lemma evictSlot_resident_own {q : Option Slot} (hq : Slotted s r q) {i : Nat} (hi : i < r.npages.toNat) :
    (evictSlot env r q s).resident (r.page i) = none := by
  have hold := hq.resident i hi
  cases q with
  | none => exact hold
  | some t =>
    rw [evictSlot_resident]
    by_cases hti : t.page = i
    · simp [hti]
    · rw [Function.update_of_ne (by simpa [page_inj] using fun h => hti h.symm), hold]
      simp [hti]

/-- The body of the loop evicts the resident page of the region and opens the page of the
faulting address. -/
lemma execute_resolveFault (hs : Ready s) (ha : Attached s r) (hw : r.WellFormed) {addr : Nat}
    (hin : r.Contains addr) {d : Page} (hd : s.page = some d) {q : Option Slot}
    (hq : Slotted s r q) (byWrite : Bool) :
    s.execute env (Uffdman.resolveFault Client.rmpPagefaultResovler r.uffd addr (opOf byWrite)) =
      some (true, openSlot env r addr byWrite (evictSlot env r q s)) := by
  obtain ⟨-, -, hat, hf⟩ := evictSlot_kernel env r q s
  have hs' : Ready (evictSlot env r q s) := hs.congr (by simp) (by simp)
  have ha' : Attached (evictSlot env r q s) r := ha.congr (by simp) (by simp) (by simp) hat hf
  have hres : (evictSlot env r q s).resident (r.page (r.index addr)) = none :=
    evictSlot_resident_own env hq (index_lt hin)
  rw [Uffdman.resolveFault, execute_bind, execute_invalidate hs ha hw hq, Option.bind_some]
  exact execute_open env hs' ha' hw hin (by simpa using hd) hres byWrite

/-- The system when the handler of `uffd` has read a fault. -/
def faultRead (uffd : Int) (byWrite : Bool) (addr : Nat) (s : System) : System :=
  { s with
    globals.msg := ⟨.pagefault, opOf byWrite, addr⟩
    pending := Function.update s.pending uffd none }

/-- The system when the handler of `uffd` also holds `fault_handler_cr`. -/
def faultTaken (uffd : Int) (byWrite : Bool) (addr : Nat) (s : System) : System :=
  { faultRead uffd byWrite addr s with locked := true }

/-- The system after a fault has been resolved. -/
def resolved (env : Env) (r : Region) (q : Option Slot) (addr : Nat) (byWrite : Bool) (s : System) :
    System :=
  { openSlot env r addr byWrite (evictSlot env r q (faultTaken r.uffd byWrite addr s)) with
    locked := false }

lemma opOf_and (byWrite : Bool) : opOf byWrite &&& uffdPagefaultFlagWrite = opOf byWrite := by
  cases byWrite <;> rfl

section Iteration

variable (resolver : (startAddr faultingAddr isWrite : Nat) → Buf → ClientM Unit)

lemma execute_iteration {uffd : Int} {m : UffdMsg} (hp : s.pending uffd = some m)
    (he : m.event = .pagefault) :
    s.execute env (Uffdman.faultHandlerIteration resolver uffd) =
      System.execute env (Uffdman.handlePagefault resolver uffd)
        { s with globals.msg := m, pending := Function.update s.pending uffd none } := by
  simp [Uffdman.faultHandlerIteration, ClientOp.exec, hp, he]

lemma execute_handlePagefault (uffd : Int) (hl : s.locked = false) :
    s.execute env (Uffdman.handlePagefault resolver uffd) =
      (System.execute env (Uffdman.resolveFault resolver uffd s.globals.msg.address
        (s.globals.msg.flags &&& uffdPagefaultFlagWrite)) { s with locked := true }).map
        (fun y => (y.1, { y.2 with locked := false })) := by
  simp only [Uffdman.handlePagefault, execute_bind, execute_get, Option.bind_some, execute_lock,
    ClientOp.exec, hl, Bool.false_eq_true, if_false, execute_unlock, execute_pure]
  cases System.execute env (Uffdman.resolveFault resolver uffd s.globals.msg.address
    (s.globals.msg.flags &&& uffdPagefaultFlagWrite)) { s with locked := true } <;> rfl

end Iteration

/-- One iteration of the handler resolves a fault of its region, also one on the page that is
resident. -/
theorem fault_eq (hs : Ready s) (hl : s.locked = false) (ha : Attached s r) (hw : r.WellFormed)
    {addr : Nat} (hin : r.Contains addr) {d : Page} (hd : s.page = some d) {q : Option Slot}
    (hq : Slotted s r q) (byWrite : Bool) :
    s.fault env byWrite addr = some (resolved env r q addr byWrite s) := by
  have hat : s.uffdAt (addr / 4096) = some r.uffd := by
    rw [page_index hw hin]
    exact ha.registered _ (index_lt hin)
  obtain ⟨tid, htid⟩ := Option.ne_none_iff_exists'.mp ha.handler
  have hbody := execute_resolveFault env (s := faultTaken r.uffd byWrite addr s)
    (hs.congr rfl rfl) (ha.congr rfl rfl rfl rfl rfl) hw hin hd
    ⟨hq.addr, hq.op, hq.inside, hq.resident⟩ byWrite
  have hread : System.execute env (Uffdman.faultHandlerIteration Client.rmpPagefaultResovler r.uffd)
      { s with pending := Function.update s.pending r.uffd (some ⟨.pagefault, opOf byWrite, addr⟩) } =
      System.execute env (Uffdman.handlePagefault Client.rmpPagefaultResovler r.uffd)
        (faultRead r.uffd byWrite addr s) := by
    rw [execute_iteration env _ (Function.update_self _ _ _) rfl]
    simp [faultRead]
  have hmutex := execute_handlePagefault env Client.rmpPagefaultResovler r.uffd
    (s := faultRead r.uffd byWrite addr s) hl
  have hflags : (faultRead r.uffd byWrite addr s).globals.msg.flags &&& uffdPagefaultFlagWrite =
      opOf byWrite := opOf_and byWrite
  have haddr : (faultRead r.uffd byWrite addr s).globals.msg.address = addr := rfl
  rw [hflags, haddr] at hmutex
  change _ = Option.map _ (System.execute env _ (faultTaken r.uffd byWrite addr s)) at hmutex
  have hflag : (if byWrite = true then uffdPagefaultFlagWrite else 0) = opOf byWrite := rfl
  simp only [System.fault, hat, htid, hflag]
  rw [hread, hmutex, hbody]
  rfl

end Faults

/-! ### Allocation and unregistration -/

/-- What the two kernels answer to a successful `rmp_alloc`: the client gets unused pages at
`a`, an unused descriptor and a new thread, and the server's `mmap` succeeds. -/
structure Grants (env : Env) (npages : UInt32) (a : Nat) (s : System) : Prop where
  mmap : env.mmapAnswer = some a
  aligned : a % 4096 = 0
  bound : a + 4096 * npages.toNat ≤ 2 ^ 64
  unused : ∀ p, pageIn a (4096 * npages.toNat) p = true → s.mapped p = false
  uffd_range : 0 ≤ env.userfaultfd ∧ env.userfaultfd < 2 ^ 31
  uffd_unused : s.openFds env.userfaultfd = false
  api : env.uffdioApi ≠ -1
  register : env.uffdioRegister ≠ -1
  create : env.pthreadCreate.1 = 0
  tid : ∀ u, s.handlerOf u ≠ some env.pthreadCreate.2
  serverLen : (npages * 4096).toNat ≠ 0
  serverMmap : env.serverOs.mmapAnswer ≠ none
  serverAnswer : s.host.space.MmapAnswer (npages * 4096).toNat env.serverOs.mmapAnswer

/-- The client's part of it: `rmp_alloc` returns a registered region, whatever the server
answers. -/
structure Registers (env : Env) (npages : UInt32) (a : Nat) (s : System) : Prop where
  npages_ne : npages ≠ 0
  mmap : env.mmapAnswer = some a
  aligned : a % 4096 = 0
  bound : a + 4096 * npages.toNat ≤ 2 ^ 64
  unused : ∀ p, pageIn a (4096 * npages.toNat) p = true → s.mapped p = false
  uffd_range : 0 ≤ env.userfaultfd ∧ env.userfaultfd < 2 ^ 31
  uffd_unused : s.openFds env.userfaultfd = false
  api : env.uffdioApi ≠ -1
  register : env.uffdioRegister ≠ -1
  create : env.pthreadCreate.1 = 0

def alloced (env : Env) (npages : UInt32) (a : Nat) (s : System) : System :=
  let req := allocRequest env s npages
  let uffd := env.userfaultfd
  { exchange env s.resolving req s with
    mapped := fun p => pageIn a (4096 * npages.toNat) p || s.mapped p
    openFds := Function.update s.openFds uffd true
    uffdAt := fun p => if pageIn a (4096 * npages.toNat) p then some uffd else s.uffdAt p
    handlerOf := Function.update s.handlerOf uffd (some env.pthreadCreate.2)
    page := some (s.page.getD zeroPage)
    globals := { s.globals with
      addrTidMap := s.globals.addrTidMap.insert a env.pthreadCreate.2
      startAddrUffdMap := s.globals.startAddrUffdMap.insert a uffd
      uffdStartAddrMap := s.globals.uffdStartAddrMap.insert uffd a
      addrHndlMap := s.globals.addrHndlMap.insert a (s.host.handle env.serverOs req).1.hndl
      addrNpagesMap := s.globals.addrNpagesMap.insert a npages.toNat } }

def unregistered (env : Env) (r : Region) (q : Option Slot) (s : System) : System :=
  let s' := evictSlot env r q s
  let g := { s.globals with
    startAddrUffdMap := s.globals.startAddrUffdMap.erase r.startAddr
    uffdStartAddrMap := s.globals.uffdStartAddrMap.erase r.uffd
    uffdPrevResolvedAddr := s.globals.uffdPrevResolvedAddr.erase r.uffd
    uffdPrevResolvedOp := s.globals.uffdPrevResolvedOp.erase r.uffd }
  match s.globals.addrTidMap.find r.startAddr with
  | none => { s' with globals := g }
  | some tid => { s' with
      globals := { g with addrTidMap := g.addrTidMap.erase tid }
      handlerOf := fun u => if s.handlerOf u = some tid then none else s.handlerOf u }

section Allocation

variable {env : Env} {s : System}

lemma Grants.registers {npages : UInt32} {a : Nat} (hg : Grants env npages a s) :
    Registers env npages a s where
  npages_ne := npages_ne_zero_of_mul hg.serverLen
  mmap := hg.mmap
  aligned := hg.aligned
  bound := hg.bound
  unused := hg.unused
  uffd_range := hg.uffd_range
  uffd_unused := hg.uffd_unused
  api := hg.api
  register := hg.register
  create := hg.create

lemma Registers.npages_pos {npages : UInt32} {a : Nat} (hg : Registers env npages a s) :
    0 < npages.toNat := by
  have h0 := mt UInt32.toNat_inj.mp hg.npages_ne
  simp only [UInt32.toNat_zero] at h0
  omega

lemma execute_registerRegion {npages : UInt32} {a : Nat} (hg : Registers env npages a s)
    (t : System) :
    t.execute env (Uffdman.registerRegion a npages.toNat) =
      some (0, { t with
        openFds := Function.update t.openFds env.userfaultfd true
        uffdAt := fun p => if pageIn a (4096 * npages.toNat) p then some env.userfaultfd
          else t.uffdAt p
        handlerOf := Function.update t.handlerOf env.userfaultfd (some env.pthreadCreate.2)
        globals := { t.globals with
          addrTidMap := t.globals.addrTidMap.insert a env.pthreadCreate.2
          startAddrUffdMap := t.globals.startAddrUffdMap.insert a env.userfaultfd
          uffdStartAddrMap := t.globals.uffdStartAddrMap.insert env.userfaultfd a } }) := by
  have hlen : npages.toNat * 4096 % 2 ^ 64 = 4096 * npages.toNat := by
    have := npages.toNat_lt
    omega
  have hne : env.userfaultfd ≠ -1 := by
    have := hg.uffd_range
    omega
  unfold Uffdman.registerRegion
  rw [hlen]
  simp [ClientOp.exec, hne, hg.api, hg.register, hg.create]

/-- An `rmp_alloc` that registers its region. -/
theorem alloc_eq (hs : Ready s) {npages : UInt32} {a : Nat} (hg : Registers env npages a s) :
    s.alloc env npages = some (.addr a, alloced env npages a s) := by
  have hn : npages.toNat * 4096 ≠ 0 := by
    have hpos := hg.npages_pos
    omega
  have hmul : npages.toNat * 4096 = 4096 * npages.toNat := Nat.mul_comm _ _
  have halloc : s.execute env (Client.rmpAlloc npages) =
      some (.addr a, { alloced env npages a s with page := s.page }) := by
    simp only [Client.rmpAlloc, execute_bind, execute_mmap, ClientOp.exec, hg.mmap, hn, if_false,
      Option.bind_some, execute_get, hs.connected, if_true, execute_packetObject, execute_send,
      execute_recv, System.serve, hs.idle, List.nil_append, execute_registerRegion hg,
      execute_modify, execute_pure]
    simp only [alloced, exchange, allocRequest, hs.connected, hs.idle, hmul]
  simp only [System.alloc, halloc, Option.bind_eq_bind, Option.bind_some]
  cases hp : s.page with
  | none => simp [Uffdman.createPage, ClientOp.exec, alloced, hp]
  | some d => simp [Uffdman.createPage, ClientOp.exec, alloced, hp]

lemma rmpAlloc_onlyPerforms {P : ClientOp → Prop} {npages : UInt32}
    (hmmap : P (.mmap (npages.toNat * 4096)))
    (hother : ∀ op, ((∀ len, op ≠ .mmap len) ∧ (∀ addr len, op ≠ .madvise addr len) ∧
      ∀ uffd dst src, op ≠ .uffdioCopy uffd dst src) → P op) :
    (Client.rmpAlloc npages).OnlyPerforms P := by
  have hcall (op : ClientOp) (hop : (∀ len, op ≠ .mmap len) ∧
      (∀ addr len, op ≠ .madvise addr len) ∧ ∀ uffd dst src, op ≠ .uffdioCopy uffd dst src) :
      op.call.OnlyPerforms P :=
    ⟨hother op hop, fun _ => trivial⟩
  refine .bind ⟨hmmap, fun _ => trivial⟩ ?_
  rintro (_ | addr)
  · exact .pure _
  refine .bind (hcall .get (by simp)) fun g => ?_
  split
  · refine .bind (hcall .packetObject (by simp)) fun pkt => ?_
    refine .bind (hcall (.send _) (by simp)) fun _ => .bind (hcall .recv (by simp)) fun reply => ?_
    refine .bind ?_ fun _ => ?_
    · refine .bind (hcall .userfaultfd (by simp)) fun uffd => ?_
      split
      · exact .pure _
      refine .bind (hcall (.uffdioApi _) (by simp)) fun api => ?_
      split
      · exact .pure _
      refine .bind (hcall (.uffdioRegister _ _ _) (by simp)) fun reg => ?_
      split
      · exact .pure _
      refine .bind (hcall (.pthreadCreate _) (by simp)) ?_
      rintro ⟨out, thrdId⟩
      dsimp only
      split
      · exact .pure _
      · exact .bind (hcall (.modify _) (by simp)) fun _ => .bind (hcall (.modify _) (by simp))
          fun _ => .bind (hcall (.modify _) (by simp)) fun _ => .pure _
    · exact .bind (hcall (.modify _) (by simp)) fun _ => .bind (hcall (.modify _) (by simp))
        fun _ => .pure _
  · exact .pure _

/-- `uffdman_unregister_region` evicts the resident page of the region and forgets it. -/
theorem unregister_eq {r : Region} (hs : Ready s) (ha : Attached s r) (hw : r.WellFormed)
    {q : Option Slot} (hq : Slotted s r q) :
    s.unregister env r.startAddr = some (unregistered env r q s) := by
  have hc : s.globals.startAddrUffdMap.Contains r.startAddr := by
    simp [UnorderedMap.Contains, ha.uffd]
  obtain ⟨-, -, -, hf⟩ := evictSlot_kernel env r q s
  simp only [System.unregister, Uffdman.unregisterRegion, execute_bind, execute_get,
    Option.bind_some, hc, if_true, execute_mapAt env s ha.uffd, execute_invalidate hs ha hw hq,
    execute_modify, evictSlot_globals]
  cases ht : s.globals.addrTidMap.find r.startAddr with
  | none =>
    have hct : ¬s.globals.addrTidMap.Contains r.startAddr := by simp [UnorderedMap.Contains, ht]
    simp [hct, unregistered, ht]
  | some tid =>
    have hct : s.globals.addrTidMap.Contains r.startAddr := by simp [UnorderedMap.Contains, ht]
    simp only [hct, if_true, execute_bind]
    rw [execute_mapAt _ _ (by exact ht)]
    simp [unregistered, ht, ClientOp.exec, hf]

end Allocation

end RemoteMemoryPool.Proofs
