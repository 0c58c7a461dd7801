import RemoteMemoryPool.Model.ClientProcess

/-!
# The userfaultfd manager

`uffdman.cpp`. The functions that call the registered `page_resolver` take it as a
parameter. An iteration of the loop of `fault_handler_thread` returns whether the loop goes
on; the thread itself is a number of iterations.
-/

namespace RemoteMemoryPool

open Interaction

namespace Uffdman

/-- `uffdman_init`. -/
def init : ClientM Unit := do
  let g ← Client.get
  if g.uffdInitialized then
    return ()
  else
    Client.modify fun g => { g with
      uffdPrevResolvedAddr := .empty
      uffdPrevResolvedOp := .empty
      addrTidMap := .empty
      startAddrUffdMap := .empty
      uffdStartAddrMap := .empty
      uffdInitialized := true }

/-- `uffdman_register_region`. -/
def registerRegion (addr nPages : Nat) : ClientM Int := do
  let len := nPages * 4096 % 2 ^ 64
  let uffd ← Client.userfaultfd
  if uffd = -1 then
    return -1
  else if (← Client.uffdioApi uffd) = -1 then
    return -1
  else if (← Client.uffdioRegister uffd addr len) = -1 then
    return -1
  else
    let (out, thrdId) ← Client.pthreadCreate uffd
    if out ≠ 0 then
      return -1
    else
      Client.modify fun g => { g with addrTidMap := g.addrTidMap.insert addr thrdId }
      Client.modify fun g => { g with startAddrUffdMap := g.startAddrUffdMap.insert addr uffd }
      Client.modify fun g => { g with uffdStartAddrMap := g.uffdStartAddrMap.insert uffd addr }
      return 0

section Resolver

variable (pageResolver : (startAddr faultingAddr isWrite : Nat) → Buf → ClientM Unit)

/-- The call of `page_resolver` for the previous page, made only if a write brought it in. -/
def resolveWrite (regionStartAddr prevResolvedAddr prevResolvedOp : Nat) : ClientM Unit := do
  if prevResolvedOp ≠ 0 then
    pageResolver regionStartAddr prevResolvedAddr prevResolvedOp (.mem prevResolvedAddr)
  else
    return ()

/-- The part of `invalidate_prev_resolved_page` guarded by the three lookups. -/
def invalidate (uffd : Int) : ClientM Unit := do
  let prevResolvedAddr ← Client.mapAt Globals.uffdPrevResolvedAddr uffd
  let prevResolvedOp ← Client.mapAt Globals.uffdPrevResolvedOp uffd
  let regionStartAddr ← Client.mapAt Globals.uffdStartAddrMap uffd
  resolveWrite pageResolver regionStartAddr prevResolvedAddr prevResolvedOp
  Client.madvise (pgRoundDown prevResolvedAddr) 4096

/-- `invalidate_prev_resolved_page`. -/
def invalidatePrevResolvedPage (uffd : Int) : ClientM Unit := do
  let g ← Client.get
  if g.uffdPrevResolvedAddr.Contains uffd ∧ g.uffdPrevResolvedOp.Contains uffd ∧
      g.uffdStartAddrMap.Contains uffd then
    invalidate pageResolver uffd
  else
    return ()

/-- `uffdman_unregister_region`. The thread id, not the address, is erased from
`addr_tid_map`. -/
def unregisterRegion (addr : Nat) : ClientM Unit := do
  let g ← Client.get
  if g.startAddrUffdMap.Contains addr then
    let uffd ← Client.mapAt Globals.startAddrUffdMap addr
    invalidatePrevResolvedPage pageResolver uffd
    Client.modify fun g => { g with startAddrUffdMap := g.startAddrUffdMap.erase addr }
    Client.modify fun g => { g with uffdStartAddrMap := g.uffdStartAddrMap.erase uffd }
    Client.modify fun g => { g with uffdPrevResolvedAddr := g.uffdPrevResolvedAddr.erase uffd }
    Client.modify fun g => { g with uffdPrevResolvedOp := g.uffdPrevResolvedOp.erase uffd }
    let g ← Client.get
    if g.addrTidMap.Contains addr then
      let tid ← Client.mapAt Globals.addrTidMap addr
      Client.modify fun g => { g with addrTidMap := g.addrTidMap.erase tid }
      Client.pthreadCancel tid
    else
      return ()
  else
    return ()

/-- The two assignments that record the resolved address and operation. A missing entry is
inserted and an existing one overwritten, which is `m[k] = v`. -/
def recordResolved (uffd : Int) (faultingAddr faultingOp : Nat) : ClientM Unit := do
  Client.modify fun g => { g with
    uffdPrevResolvedAddr := g.uffdPrevResolvedAddr.set uffd (pgRoundDown faultingAddr) }
  Client.modify fun g => { g with
    uffdPrevResolvedOp := g.uffdPrevResolvedOp.set uffd faultingOp }

/-- The call of `page_resolver` for the current fault, made only if it is a read. -/
def resolveRead (uffd : Int) (faultingAddr faultingOp : Nat) : ClientM Unit := do
  if faultingOp = 0 then
    let regionStartAddr ← Client.mapAt Globals.uffdStartAddrMap uffd
    pageResolver regionStartAddr faultingAddr faultingOp .staticPage
  else
    return ()

/-- The body of the loop while `guard` holds `fault_handler_cr`. -/
def resolveFault (uffd : Int) (faultingAddr faultingOp : Nat) : ClientM Bool := do
  invalidatePrevResolvedPage pageResolver uffd
  resolveRead pageResolver uffd faultingAddr faultingOp
  if (← Client.uffdioCopy uffd (pgRoundDown faultingAddr) .staticPage) = -1 then
    return false
  else
    recordResolved uffd faultingAddr faultingOp
    return true

/-- The body of the loop once a page fault has been read into `msg`. -/
def handlePagefault (uffd : Int) : ClientM Bool := do
  let g ← Client.get
  let faultingAddr := g.msg.address
  let faultingOp := g.msg.flags &&& uffdPagefaultFlagWrite
  Client.lock
  let continues ← resolveFault pageResolver uffd faultingAddr faultingOp
  Client.unlock .faultHandlerThread
  return continues

/-- One iteration of the loop of `fault_handler_thread`. -/
def faultHandlerIteration (uffd : Int) : ClientM Bool := do
  if (← Client.poll uffd) = -1 then
    return false
  else
    let nread ← Client.readMsg uffd
    if nread = 0 then
      return false
    else if nread = -1 then
      return false
    else
      let g ← Client.get
      if g.msg.event = .unmap then
        return true
      else if g.msg.event ≠ .pagefault then
        return false
      else
        handlePagefault pageResolver uffd

/-- What `fault_handler_thread` does before its loop: map the static page once. -/
def createPage : ClientM Unit := do
  if ← Client.pageIsNull then
    Client.mmapPage
  else
    return ()

/-- At most `n` iterations of the loop. -/
def faultHandlerLoop (uffd : Int) : Nat → ClientM Unit
  | 0 => return ()
  | n + 1 => do
    if ← faultHandlerIteration pageResolver uffd then
      faultHandlerLoop uffd n
    else
      return ()

/-- `fault_handler_thread`, up to its `n`th iteration. -/
def faultHandlerThread (uffd : Int) (n : Nat) : ClientM Unit := do
  createPage
  faultHandlerLoop pageResolver uffd n

end Resolver

end Uffdman

end RemoteMemoryPool
