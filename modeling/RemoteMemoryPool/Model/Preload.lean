import RemoteMemoryPool.Model.Client

/-!
# The preload library

`preloadlib.cpp`: the `malloc` that an unmodified program calls. The four pointers found by
`dlsym` are set together, so `hooked` stands for `stdlib_malloc` being set. The allocations
made by `new` inside the client are not followed: they find `do_local_allocation` set and go to
the C library.
-/

namespace RemoteMemoryPool

open Interaction

namespace Preload

/-- `rmp_conn_init`; the `lock_guard` is released at its end. -/
def rmpConnInit : ClientM Unit := do
  Client.lock
  Client.modify fun g => { g with doLocalAllocation := true }
  let self ← Client.pthreadSelf
  Client.modify fun g => { g with mainthreadId := self }
  let fd ← Client.rmpInit
  Client.modify fun g => { g with rmpFd := fd }
  Client.modify fun g => { g with doLocalAllocation := false }
  Client.unlock .rmpConnInit

/-- `preloadlib_init`. -/
def preloadlibInit : ClientM Unit := do
  if ← Client.dlsym then
    Client.modify fun g => { g with hooked := true }
  else
    Client.terminate

/-- The first conditional of `check_conn`. -/
def hookOnce : ClientM Unit := do
  let g ← Client.get
  if g.hooked then
    return ()
  else
    preloadlibInit

/-- The second conditional of `check_conn`. -/
def connectOnce : ClientM Unit := do
  let g ← Client.get
  if g.rmpFd = -1 then
    rmpConnInit
  else
    return ()

/-- `check_conn`. -/
def checkConn : ClientM Bool := do
  hookOnce
  connectOnce
  let g ← Client.get
  return g.rmpFd ≠ -1

/-- `local_malloc`. -/
def localMalloc (size : Nat) : ClientM Client.AllocResult := do
  let g ← Client.get
  if g.hooked then
    let a ← Client.stdlibMalloc size
    return .addr a
  else
    preloadlibInit
    return .null

/-- `ceil((float)size / (float)PAGE_SIZE)`: the size is rounded to a `float`, the quotient by
4096 is exact. -/
def mallocPages (size : Nat) : Nat := (Rounding.roundToFormat 24 size + 4095) / 4096

/-- The part of `malloc` in the scope of its `lock_guard`: the mutex is unlocked explicitly,
and once more when `guard` goes out of scope. -/
def remoteMalloc (size : Nat) : ClientM Client.AllocResult := do
  Client.lock
  Client.modify fun g => { g with doLocalAllocation := true }
  let result ← Client.rmpAlloc (UInt32.ofNat (mallocPages size))
  Client.unlock .mallocExplicit
  Client.modify fun g => { g with doLocalAllocation := false }
  Client.unlock .mallocGuard
  return result

/-- `malloc`. -/
def malloc (size : Nat) : ClientM Client.AllocResult := do
  let g ← Client.get
  if g.doLocalAllocation then
    localMalloc size
  else if ← checkConn then
    let self ← Client.pthreadSelf
    let g ← Client.get
    if self ≠ g.mainthreadId then
      localMalloc size
    else
      remoteMalloc size
  else
    return .null

/-- `free`: its body is commented out but for the debug output. -/
def free (_ptr : Nat) : ClientM Unit := return ()

end Preload

end RemoteMemoryPool
