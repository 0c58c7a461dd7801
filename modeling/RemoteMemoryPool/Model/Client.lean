import RemoteMemoryPool.Lib.Rounding
import RemoteMemoryPool.Model.Uffdman

/-!
# The client

`rmp_client.cpp`: the page resolver and the methods of `rmp::Client`. A packet on the stack
starts with indeterminate contents, so the fields that are not assigned are arbitrary.
-/

namespace RemoteMemoryPool

open Interaction

namespace Client

/-- `rmp_write_page`. -/
def rmpWritePage (hd : Handle) (offset : Nat) (page : Buf) : ClientM Unit := do
  let g ← get
  if g.connected then
    let sendPkt ← packetObject
    let data ← loadPage page
    send { sendPkt with
      action := 2
      data := data
      size := 4096
      offset := UInt32.ofNat offset
      error := 0
      hndl := hd }
    let _ ← recv
    return ()
  else
    return ()

/-- `rmp_read_page`. -/
def rmpReadPage (hd : Handle) (offset : Nat) (page : Buf) : ClientM Unit := do
  let g ← get
  if g.connected then
    let sendPkt ← packetObject
    send { sendPkt with
      action := 1
      offset := UInt32.ofNat offset
      size := 4096
      error := 0
      hndl := hd }
    let returnPkt ← recv
    storePage page returnPkt.data
  else
    return ()

/-- The page index computed by `rmp_pagefault_resovler`: an unsigned difference and
quotient, converted to `double` for `floor` and back. -/
def pageOffset (startAddr faultingAddr : Nat) : Nat :=
  let offset := (pgRoundDown faultingAddr + 2 ^ 64 - startAddr) % 2 ^ 64
  Rounding.roundToFormat 53 (offset / 4096)

/-- `rmp_pagefault_resovler`. -/
def rmpPagefaultResovler (startAddr faultingAddr isWrite : Nat) (page : Buf) : ClientM Unit := do
  enterResolver ⟨startAddr, faultingAddr, isWrite⟩
  let hndl ← mapAt Globals.addrHndlMap startAddr
  if isWrite ≠ 0 then
    rmpWritePage hndl (pageOffset startAddr faultingAddr) page
  else
    rmpReadPage hndl (pageOffset startAddr faultingAddr) page

/-- `rmp::Client::rmp_init`. -/
def rmpInit : ClientM Int := do
  if (← socket) < 0 then
    return -1
  else if (← connect) < 0 then
    return -1
  else
    modify fun g => { g with connected := true }
    Uffdman.init
    modify fun g => { g with addrHndlMap := .empty, addrNpagesMap := .empty }
    return 0

/-- The address `rmp_alloc` returns. -/
inductive AllocResult
  | mapFailed
  | null
  | addr (a : Nat)

/-- `rmp::Client::rmp_alloc`. The error of the reply and the result of the registration are
not looked at. -/
def rmpAlloc (npages : UInt32) : ClientM AllocResult := do
  match ← mmap (npages.toNat * 4096) with
  | none => return .mapFailed
  | some newAddr =>
    let g ← get
    if g.connected then
      let sendPkt ← packetObject
      send { sendPkt with action := 0, npages := npages, size := 4096 }
      let returnPkt ← recv
      let _ ← Uffdman.registerRegion newAddr npages.toNat
      modify fun g => { g with addrHndlMap := g.addrHndlMap.insert newAddr returnPkt.hndl }
      modify fun g => { g with addrNpagesMap := g.addrNpagesMap.insert newAddr npages.toNat }
      return .addr newAddr
    else
      return .null

/-- `rmp::Client::rmp_read`. -/
def rmpRead (hd : Handle) (offset : Nat) (page : Buf) : ClientM Unit := rmpReadPage hd offset page

/-- `rmp::Client::rmp_write`. -/
def rmpWrite (hd : Handle) (offset : Nat) (page : Buf) : ClientM Unit := rmpWritePage hd offset page

end Client

end RemoteMemoryPool
