import RemoteMemoryPool.Model.Client
import RemoteMemoryPool.Model.Server
import Mathlib.Logic.Function.Basic

/-!
# One client and one server

A client process with one application thread, its kernel, the socket and the server. The
socket carries whole packets in order; the server answers the oldest request by the time
`recv` returns. An access to a page that is not resident raises a fault, which one
iteration of the region's handler thread resolves before the access is retried.
-/

namespace RemoteMemoryPool

open Interaction

/-- A request the server has answered, with the call of the page resolver that sent it. -/
structure Exchange where
  call : Option ResolverCall
  request : Packet
  reply : Packet

/-- The client process, the kernel's tables for it, the socket and the server. Pages are
numbered by their address divided by 4096. -/
structure System where
  globals : Globals
  locked : Bool
  page : Option Page
  mapped : Nat → Bool
  resident : Nat → Option Page
  openFds : Int → Bool
  uffdAt : Nat → Option Int
  handlerOf : Int → Option Nat
  pending : Int → Option UffdMsg
  resolving : Option ResolverCall
  requests : List (Option ResolverCall × Packet)
  log : List Exchange
  host : Host

/-- What the kernels answer, and what uninitialised packets hold, during one event. The
packet created when `n` requests have been answered starts as `packetObject n`. -/
structure Env where
  packetObject : Nat → Packet
  mmapAnswer : Option Nat
  userfaultfd : Int
  uffdioApi : Int
  uffdioRegister : Int
  pthreadCreate : Int × Nat
  socket : Int
  connect : Int
  pthreadSelf : Nat
  dlsym : Bool
  stdlibMalloc : Nat
  serverOs : Os

/-- The pages of the range of `len` bytes at `start`. -/
def pageIn (start len p : Nat) : Bool := decide (start ≤ 4096 * p) && decide (4096 * p < start + len)

namespace System

/-- The page a buffer points to; pages of the application are copied at page boundaries. -/
def bufPage (s : System) : Buf → Option Page
  | .staticPage => s.page
  | .mem addr => if addr % 4096 = 0 then s.resident (addr / 4096) else none

/-- The server answers the oldest request. -/
def serve (env : Env) (s : System) : Option (Packet × System) :=
  match s.requests with
  | [] => none
  | (call, request) :: rest =>
    let r := s.host.handle env.serverOs request
    some (r.1, { s with requests := rest, log := s.log ++ [⟨call, request, r.1⟩], host := r.2 })

end System

/-- The effect of one operation; `none` when it blocks for ever or ends the process. -/
def ClientOp.exec (env : Env) : (op : ClientOp) → System → Option (op.Res × System)
  | .get, s => some (s.globals, s)
  | .modify f, s => some ((), { s with globals := f s.globals })
  | .terminate, _ => none
  | .lock, s => if s.locked then none else some ((), { s with locked := true })
  | .unlock _, s => some ((), { s with locked := false })
  | .poll uffd, s => if (s.pending uffd).isSome then some (1, s) else none
  | .readMsg uffd, s =>
    match s.pending uffd with
    | none => some (-1, s)
    | some m => some (32, { s with
        globals.msg := m
        pending := Function.update s.pending uffd none })
  | .pageIsNull, s => some (s.page.isNone, s)
  | .mmapPage, s => some ((), { s with page := some zeroPage })
  | .packetObject, s => some (env.packetObject s.log.length, s)
  | .loadPage src, s => (s.bufPage src).map (fun d => (d, s))
  | .storePage .staticPage d, s => s.page.map (fun _ => ((), { s with page := some d }))
  | .storePage (.mem addr) d, s => (s.bufPage (.mem addr)).map (fun _ =>
      ((), { s with resident := Function.update s.resident (addr / 4096) (some d) }))
  | .enterResolver call, s => some ((), { s with resolving := some call })
  | .send packet, s => some ((), { s with
      requests := s.requests ++ [(s.resolving, packet)]
      resolving := none })
  | .recv, s => s.serve env
  | .mmap len, s =>
    match env.mmapAnswer with
    | none => some (none, s)
    | some a =>
      if len = 0 then some (none, s)
      else some (some a, { s with mapped := fun p => pageIn a len p || s.mapped p })
  | .userfaultfd, s =>
    some (env.userfaultfd, { s with openFds := Function.update s.openFds env.userfaultfd true })
  | .uffdioApi _, s => some (env.uffdioApi, s)
  | .uffdioRegister uffd start len, s =>
    if env.uffdioRegister = -1 then some (-1, s)
    else some (env.uffdioRegister, { s with
      uffdAt := fun p => if pageIn start len p then some uffd else s.uffdAt p })
  | .uffdioCopy uffd dst src, s =>
    match s.bufPage src with
    | none => some (-1, s)
    | some d =>
      if s.uffdAt (dst / 4096) = some uffd ∧ s.resident (dst / 4096) = none then
        some (0, { s with resident := Function.update s.resident (dst / 4096) (some d) })
      else some (-1, s)
  | .madvise addr len, s =>
    some ((), { s with resident := fun p => if pageIn addr len p then none else s.resident p })
  | .pthreadCreate uffd, s =>
    if env.pthreadCreate.1 = 0 then
      some (env.pthreadCreate,
        { s with handlerOf := Function.update s.handlerOf uffd (some env.pthreadCreate.2) })
    else some (env.pthreadCreate, s)
  | .pthreadCancel tid, s => some ((), { s with
      handlerOf := fun u => if s.handlerOf u = some tid then none else s.handlerOf u })
  | .socket, s => some (env.socket, s)
  | .connect, s => some (env.connect, s)
  | .pthreadSelf, s => some (env.pthreadSelf, s)
  | .dlsym, s => some (env.dlsym, s)
  | .stdlibMalloc _, s => some (env.stdlibMalloc, s)

namespace System

/-- A function of the client runs to its end. -/
def execute {α : Type} (env : Env) (x : ClientM α) (s : System) : Option (α × System) :=
  x.runPartial (ClientOp.exec env) s

/-- The process once `rmp_init` has succeeded, with a fresh server. -/
def init (mem : Nat → UInt8) : System where
  globals :=
    { connected := true, addrHndlMap := .empty, addrNpagesMap := .empty
      uffdInitialized := true, addrTidMap := .empty, startAddrUffdMap := .empty
      uffdStartAddrMap := .empty, uffdPrevResolvedAddr := .empty, uffdPrevResolvedOp := .empty
      msg := ⟨.other, 0, 0⟩, hooked := false, doLocalAllocation := false, rmpFd := 0
      mainthreadId := 0 }
  locked := false
  page := none
  mapped := fun _ => false
  resident := fun _ => none
  openFds := fun _ => false
  uffdAt := fun _ => none
  handlerOf := fun _ => none
  pending := fun _ => none
  resolving := none
  requests := []
  log := []
  host := Host.fresh mem

/-- The application calls `rmp_alloc`; the handler thread it starts maps the static page. -/
def alloc (env : Env) (npages : UInt32) (s : System) : Option (Client.AllocResult × System) := do
  let (r, s) ← s.execute env (Client.rmpAlloc npages)
  match r with
  | .addr a =>
    let (_, s) ← s.execute env Uffdman.createPage
    return (.addr a, s)
  | r => return (r, s)

/-- A fault on the page of `addr` is resolved by one iteration of its handler thread. -/
def fault (env : Env) (isWrite : Bool) (addr : Nat) (s : System) : Option System :=
  match s.uffdAt (addr / 4096) with
  | none => none
  | some uffd =>
    match s.handlerOf uffd with
    | none => none
    | some _ =>
      let msg : UffdMsg := ⟨.pagefault, if isWrite then uffdPagefaultFlagWrite else 0, addr⟩
      let s := { s with pending := Function.update s.pending uffd (some msg) }
      match s.execute env (Uffdman.faultHandlerIteration Client.rmpPagefaultResovler uffd) with
      | some (true, s) => some s
      | _ => none

/-- The page of `addr` once an access to it is possible. -/
def fetch (env : Env) (isWrite : Bool) (addr : Nat) (s : System) : Option (Page × System) :=
  match s.resident (addr / 4096) with
  | some d => some (d, s)
  | none =>
    match s.fault env isWrite addr with
    | none => none
    | some s => (s.resident (addr / 4096)).map (fun d => (d, s))

/-- The position of a byte in its page. -/
def byteOf (addr : Nat) : Fin 4096 := ⟨addr % 4096, Nat.mod_lt _ (by decide)⟩

/-- The application loads the byte at `addr`. -/
def load (env : Env) (addr : Nat) (s : System) : Option (UInt8 × System) :=
  (s.fetch env false addr).map (fun x => (x.1 (byteOf addr), x.2))

/-- The application stores `value` at `addr`. -/
def store (env : Env) (addr : Nat) (value : UInt8) (s : System) : Option System :=
  (s.fetch env true addr).map (fun x => { x.2 with
    resident := Function.update x.2.resident (addr / 4096)
      (some (Function.update x.1 (byteOf addr) value)) })

/-- The application calls `uffdman_unregister_region`. -/
def unregister (env : Env) (startAddr : Nat) (s : System) : Option System :=
  (s.execute env (Uffdman.unregisterRegion Client.rmpPagefaultResovler startAddr)).map Prod.snd

end System

end RemoteMemoryPool
