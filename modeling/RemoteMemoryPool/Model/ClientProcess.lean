import RemoteMemoryPool.Lib.Program
import RemoteMemoryPool.Lib.UnorderedMap
import RemoteMemoryPool.Model.Packet

/-!
# The client process

The global variables of `rmp_client.cpp`, `uffdman.cpp` and `preloadlib.cpp`, and the
operations the client code performs on them, on its mutex, on the socket and on the kernel.
The functions of the three files are programs over these operations. `PAGE_SIZE` is 4096,
and the debug output and the calls of `usleep` are left out.
-/

namespace RemoteMemoryPool

open Interaction

/-- The events of `struct uffd_msg` the code distinguishes. -/
inductive UffdEvent
  | pagefault
  | unmap
  | other
  deriving DecidableEq

/-- The members of `struct uffd_msg` the code reads. -/
structure UffdMsg where
  event : UffdEvent
  flags : Nat
  address : Nat

/-- `UFFD_PAGEFAULT_FLAG_WRITE`. -/
def uffdPagefaultFlagWrite : Nat := 1

/-- `PGROUNDDOWN`. -/
def pgRoundDown (a : Nat) : Nat := a - a % 4096

/-- The global and static variables, less the page the handlers copy from. -/
structure Globals where
  connected : Bool
  addrHndlMap : UnorderedMap Nat Handle
  addrNpagesMap : UnorderedMap Nat Nat
  uffdInitialized : Bool
  addrTidMap : UnorderedMap Nat Nat
  startAddrUffdMap : UnorderedMap Nat Int
  uffdStartAddrMap : UnorderedMap Int Nat
  uffdPrevResolvedAddr : UnorderedMap Int Nat
  uffdPrevResolvedOp : UnorderedMap Int Nat
  msg : UffdMsg
  hooked : Bool
  doLocalAllocation : Bool
  rmpFd : Int
  mainthreadId : Nat

/-- A `void *page`: the static page of `fault_handler_thread`, or another address. -/
inductive Buf
  | staticPage
  | mem (addr : Nat)

/-- The arguments of a call of `page_resolver`, less the page. -/
structure ResolverCall where
  startAddr : Nat
  faultingAddr : Nat
  isWrite : Nat

/-- The statement that releases `fault_handler_cr`: the explicit call in `malloc`, or the
end of the scope of a `lock_guard`. -/
inductive UnlockSite
  | faultHandlerThread
  | rmpConnInit
  | mallocExplicit
  | mallocGuard
  deriving DecidableEq

inductive ClientOp
  | get
  | modify (f : Globals → Globals)
  | terminate
  | lock
  | unlock (site : UnlockSite)
  | poll (uffd : Int)
  | readMsg (uffd : Int)
  | pageIsNull
  | mmapPage
  | packetObject
  | loadPage (src : Buf)
  | storePage (dst : Buf) (data : Page)
  | enterResolver (call : ResolverCall)
  | send (packet : Packet)
  | recv
  | mmap (len : Nat)
  | userfaultfd
  | uffdioApi (uffd : Int)
  | uffdioRegister (uffd : Int) (start len : Nat)
  | uffdioCopy (uffd : Int) (dst : Nat) (src : Buf)
  | madvise (addr len : Nat)
  | pthreadCreate (uffd : Int)
  | pthreadCancel (tid : Nat)
  | socket
  | connect
  | pthreadSelf
  | dlsym
  | stdlibMalloc (size : Nat)

/-- The answer an operation returns. -/
@[reducible] def ClientOp.Res : ClientOp → Type
  | .get => Globals
  | .terminate => Empty
  | .poll _ => Int
  | .readMsg _ => Int
  | .pageIsNull => Bool
  | .packetObject => Packet
  | .loadPage _ => Page
  | .recv => Packet
  | .mmap _ => Option Nat
  | .userfaultfd => Int
  | .uffdioApi _ => Int
  | .uffdioRegister _ _ _ => Int
  | .uffdioCopy _ _ _ => Int
  | .pthreadCreate _ => Int × Nat
  | .socket => Int
  | .connect => Int
  | .pthreadSelf => Nat
  | .dlsym => Bool
  | .stdlibMalloc _ => Nat
  | _ => Unit

abbrev ClientM := Program ClientOp.Res

def ClientOp.call (op : ClientOp) : ClientM op.Res := Program.perform op

namespace Client

def get : ClientM Globals := ClientOp.get.call
def modify (f : Globals → Globals) : ClientM Unit := (ClientOp.modify f).call
def lock : ClientM Unit := ClientOp.lock.call
def unlock (site : UnlockSite) : ClientM Unit := (ClientOp.unlock site).call
def poll (uffd : Int) : ClientM Int := (ClientOp.poll uffd).call
def readMsg (uffd : Int) : ClientM Int := (ClientOp.readMsg uffd).call
def pageIsNull : ClientM Bool := ClientOp.pageIsNull.call
def mmapPage : ClientM Unit := ClientOp.mmapPage.call
def packetObject : ClientM Packet := ClientOp.packetObject.call
def loadPage (src : Buf) : ClientM Page := (ClientOp.loadPage src).call
def storePage (dst : Buf) (data : Page) : ClientM Unit := (ClientOp.storePage dst data).call
def enterResolver (call : ResolverCall) : ClientM Unit := (ClientOp.enterResolver call).call
def send (packet : Packet) : ClientM Unit := (ClientOp.send packet).call
def recv : ClientM Packet := ClientOp.recv.call
def mmap (len : Nat) : ClientM (Option Nat) := (ClientOp.mmap len).call
def userfaultfd : ClientM Int := ClientOp.userfaultfd.call
def uffdioApi (uffd : Int) : ClientM Int := (ClientOp.uffdioApi uffd).call
def uffdioRegister (uffd : Int) (start len : Nat) : ClientM Int :=
  (ClientOp.uffdioRegister uffd start len).call
def uffdioCopy (uffd : Int) (dst : Nat) (src : Buf) : ClientM Int :=
  (ClientOp.uffdioCopy uffd dst src).call
def madvise (addr len : Nat) : ClientM Unit := (ClientOp.madvise addr len).call
def pthreadCreate (uffd : Int) : ClientM (Int × Nat) := (ClientOp.pthreadCreate uffd).call
def pthreadCancel (tid : Nat) : ClientM Unit := (ClientOp.pthreadCancel tid).call
def socket : ClientM Int := ClientOp.socket.call
def connect : ClientM Int := ClientOp.connect.call
def pthreadSelf : ClientM Nat := ClientOp.pthreadSelf.call
def dlsym : ClientM Bool := ClientOp.dlsym.call
def stdlibMalloc (size : Nat) : ClientM Nat := (ClientOp.stdlibMalloc size).call

/-- An uncaught exception, and `exit`. -/
def terminate {α : Type} : ClientM α := do
  let r ← ClientOp.terminate.call
  nomatch r

/-- `m->at(k)`, which throws when the key is missing. -/
def mapAt {K V : Type} (m : Globals → UnorderedMap K V) (k : K) : ClientM V := do
  let g ← get
  match (m g).find k with
  | some v => return v
  | none => terminate

end Client

end RemoteMemoryPool
