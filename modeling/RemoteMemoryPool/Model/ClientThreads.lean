import RemoteMemoryPool.Model.Preload
import RemoteMemoryPool.Model.Server

/-!
# The threads of a client process

Several threads of one client process, interleaved operation by operation, and the server at
the other end of their socket. `fault_handler_cr` is a flag that `lock` waits for and sets and
`unlock` clears. The socket is a queue of requests to the server, which answers them one by
one, and a queue of replies back. Requests are numbered as they are sent, and a reply carries
the number of the request it answers; the code sees the packets only.
-/

namespace RemoteMemoryPool

open Interaction

structure Numbered where
  number : Nat
  packet : Packet

/-- What the threads share, and the server. -/
structure Shared where
  globals : Globals
  locked : Bool
  sent : Nat
  requests : List Numbered
  replies : List Numbered
  host : Host

/-- The answers and next states of an operation of the thread with id `tid`. `read` overwrites
the static `msg`. An operation on memory, on the kernel or on the file descriptors may give
any answer. -/
def ClientOp.Effect (tid : Nat) : (op : ClientOp) → Shared → op.Res → Shared → Prop
  | .get, s, r, s' => r = s.globals ∧ s' = s
  | .modify f, s, _, s' => s' = { s with globals := f s.globals }
  | .lock, s, _, s' => s.locked = false ∧ s' = { s with locked := true }
  | .unlock _, s, _, s' => s' = { s with locked := false }
  | .readMsg _, s, _, s' => ∃ msg, s' = { s with globals.msg := msg }
  | .send p, s, _, s' =>
    s' = { s with sent := s.sent + 1, requests := s.requests ++ [⟨s.sent, p⟩] }
  | .recv, s, r, s' =>
    ∃ reply rest, s.replies = reply :: rest ∧ r = reply.packet ∧ s' = { s with replies := rest }
  | .pthreadSelf, s, r, s' => r = tid ∧ s' = s
  | _, s, _, s' => s' = s

/-- The server handles the oldest request. -/
def Shared.Serve (os : Os) (s s' : Shared) : Prop :=
  ∃ request rest, s.requests = request :: rest ∧ os.Admissible s.host request.packet ∧
    s' = { s with
      requests := rest
      replies := s.replies ++ [⟨request.number, (s.host.handle os request.packet).1⟩]
      host := (s.host.handle os request.packet).2 }

section Threads

variable {ι : Type}

/-- The threads of a client process with the state they share. -/
abbrev Process (ι : Type) := Pool ι ClientOp.Res Shared Unit

inductive ProcessEvent (ι : Type)
  | act (a : Action ι ClientOp.Res)
  | serve (os : Os)

/-- One step of the process or of its server; `tid` gives the thread ids. -/
def Process.Step [DecidableEq ι] (tid : ι → Nat) (c : Process ι) : ProcessEvent ι → Process ι → Prop
  | .act a, c' => Pool.Step (fun i op => op.Effect (tid i)) c a c'
  | .serve os, c' => c'.threads = c.threads ∧ c.state.Serve os c'.state

abbrev History (ι : Type) := List (Process ι × ProcessEvent ι)

end Threads

/-! ### A scheduler

One execution of a process for a given order of its steps: system calls succeed, the kernel
hands out new addresses and file descriptors, every page fault is a read of the first page of
its region, and the server's kernel refuses to map memory. -/

/-- An answer and next state that `ClientOp.Effect` allows. -/
def ClientOp.succeed (tid : Nat) : (op : ClientOp) → Shared → Option (op.Res × Shared)
  | .get, s => some (s.globals, s)
  | .modify f, s => some ((), { s with globals := f s.globals })
  | .terminate, _ => none
  | .lock, s => if s.locked then none else some ((), { s with locked := true })
  | .unlock _, s => some ((), { s with locked := false })
  | .poll _, s => some (1, s)
  | .readMsg uffd, s =>
    some (32, { s with globals.msg := ⟨.pagefault, 0, (s.globals.uffdStartAddrMap.find uffd).getD 0⟩ })
  | .pageIsNull, s => some (true, s)
  | .mmapPage, s => some ((), s)
  | .packetObject, s => some (⟨0, 0, 0, 0, 0, zeroPage, 0⟩, s)
  | .loadPage _, s => some (zeroPage, s)
  | .storePage _ _, s => some ((), s)
  | .enterResolver _, s => some ((), s)
  | .send p, s =>
    some ((), { s with sent := s.sent + 1, requests := s.requests ++ [⟨s.sent, p⟩] })
  | .recv, s =>
    match s.replies with
    | [] => none
    | reply :: rest => some (reply.packet, { s with replies := rest })
  | .mmap _, s => some (some (4096 * (s.sent + 1)), s)
  | .userfaultfd, s => some (s.sent, s)
  | .uffdioApi _, s => some (0, s)
  | .uffdioRegister _ _ _, s => some (0, s)
  | .uffdioCopy _ _ _, s => some (0, s)
  | .madvise _ _, s => some ((), s)
  | .pthreadCreate _, s => some ((0, s.sent), s)
  | .pthreadCancel _, s => some ((), s)
  | .socket, s => some (3, s)
  | .connect, s => some (0, s)
  | .pthreadSelf, s => some (tid, s)
  | .dlsym, s => some (true, s)
  | .stdlibMalloc _, s => some (8, s)

/-- The server's kernel in these executions. -/
def refusingOs : Os := ⟨none, true⟩

/-- The server handles the oldest request, if there is one. -/
def Shared.serve (s : Shared) : Option Shared :=
  match s.requests with
  | [] => none
  | request :: rest =>
    some { s with
      requests := rest
      replies := s.replies ++ [⟨request.number, (s.host.handle refusingOs request.packet).1⟩]
      host := (s.host.handle refusingOs request.packet).2 }

section Scheduler

variable {ι : Type} [DecidableEq ι]

/-- The next step of the given thread, or of the server. -/
def Process.advance (tid : ι → Nat) (c : Process ι) : Option ι → Option (ProcessEvent ι × Process ι)
  | none => c.state.serve.map (fun s => (.serve refusingOs, ⟨c.threads, s⟩))
  | some i =>
    match c.threads i with
    | .pure _ => none
    | .call op next =>
      (op.succeed (tid i) c.state).map
        (fun x => (.act ⟨i, op, x.1⟩, ⟨Function.update c.threads i (next x.1), x.2⟩))

/-- The execution in the given order of steps, if no step is blocked. -/
def Process.execute (tid : ι → Nat) (c : Process ι) : List (Option ι) → Option (History ι × Process ι)
  | [] => some ([], c)
  | i :: order =>
    (c.advance tid i).bind (fun x =>
      (Process.execute tid x.2 order).map (fun y => ((c, x.1) :: y.1, y.2)))

end Scheduler

/-- A process that has not done anything, with a server that has not handled a request. -/
def Shared.fresh : Shared where
  globals := {
    connected := false
    addrHndlMap := .empty
    addrNpagesMap := .empty
    uffdInitialized := false
    addrTidMap := .empty
    startAddrUffdMap := .empty
    uffdStartAddrMap := .empty
    uffdPrevResolvedAddr := .empty
    uffdPrevResolvedOp := .empty
    msg := ⟨.other, 0, 0⟩
    hooked := false
    doLocalAllocation := false
    rmpFd := -1
    mainthreadId := 0 }
  locked := false
  sent := 0
  requests := []
  replies := []
  host := Host.fresh (fun _ => 0)

/-- A process whose main thread makes calls of `malloc` and whose other threads are fault
handlers. -/
inductive ThreadName (κ : Type)
  | main
  | handler (region : κ)
  deriving DecidableEq

/-- The given calls of `malloc`, one after another. -/
def mallocs : List Nat → ClientM Unit
  | [] => return ()
  | size :: sizes => do
    let _ ← Preload.malloc size
    mallocs sizes

/-- What each thread does: the region of `handler k` has the file descriptor `uffd k`, and its
handler runs for at most `n k` iterations. -/
def preloadThreads {κ : Type} (sizes : List Nat) (uffd : κ → Int) (n : κ → Nat) :
    ThreadName κ → ClientM Unit
  | .main => mallocs sizes
  | .handler k => Uffdman.faultHandlerThread Client.rmpPagefaultResovler (uffd k) (n k)

/-- A call of a public method of `rmp::Client`. -/
inductive PublicCall
  | alloc (npages : UInt32)
  | read (hd : Handle) (offset : Nat) (page : Buf)
  | write (hd : Handle) (offset : Nat) (page : Buf)

def PublicCall.run : PublicCall → ClientM Unit
  | .alloc npages => do
    let _ ← Client.rmpAlloc npages
    return ()
  | .read hd offset page => Client.rmpRead hd offset page
  | .write hd offset page => Client.rmpWrite hd offset page

/-- What a thread of an application does: calls of public methods, or the resolution of the
page faults of a region. -/
inductive ThreadWork
  | calls (calls : List PublicCall)
  | faultHandler (uffd : Int) (n : Nat)

def runCalls : List PublicCall → ClientM Unit
  | [] => return ()
  | c :: cs => do
    c.run
    runCalls cs

def ThreadWork.run : ThreadWork → ClientM Unit
  | .calls cs => runCalls cs
  | .faultHandler uffd n => Uffdman.faultHandlerThread Client.rmpPagefaultResovler uffd n

/-- A call that a program under the preload library makes. -/
inductive HeapCall
  | malloc (size : Nat)
  | free (ptr : Nat)

def HeapCall.run : HeapCall → ClientM Unit
  | .malloc size => do
    let _ ← Preload.malloc size
    return ()
  | .free ptr => Preload.free ptr

def runHeapCalls : List HeapCall → ClientM Unit
  | [] => return ()
  | c :: cs => do
    c.run
    runHeapCalls cs

/-- What a thread of a program under the preload library does: its calls of `malloc` and `free`,
or what a thread of an application does. -/
inductive Job
  | heap (calls : List HeapCall)
  | work (w : ThreadWork)

def Job.run : Job → ClientM Unit
  | .heap calls => runHeapCalls calls
  | .work w => w.run

end RemoteMemoryPool
