import RemoteMemoryPool.Lib.Program
import RemoteMemoryPool.Lib.UnorderedMap
import RemoteMemoryPool.Model.AddressSpace

/-!
# The server

`rmp::Server` of `rmp_server.hpp` and `rmp_server.cpp`. The accessors of the class, each
of which holds one of its mutexes for its whole body, and the calls `mmap`, `munmap` and
`memcpy` are the atomic operations. The methods are programs over them, so that the same
text is run alone (`Host.handle`) and interleaved with other calls.
-/

namespace RemoteMemoryPool

open Interaction

/-- The data members of `rmp::Server`. -/
structure Server where
  handleCount : UInt32
  addrMap : UnorderedMap Handle Nat
  hndlNPages : UnorderedMap Handle UInt32

/-- A server object in its process. -/
structure Host where
  server : Server
  space : AddressSpace

/-- `Server(rmp::config)` in a process that has mapped nothing through it. -/
def Host.fresh (mem : Nat → UInt8) : Host where
  server := ⟨0, .empty, .empty⟩
  space := ⟨fun _ => false, mem⟩

inductive ServerOp
  | getNewHandle
  | setAddrMap (hndl : Handle) (addr : Nat)
  | getAddrMap (hndl : Handle)
  | unsetAddrMap (hndl : Handle)
  | setHndlNPages (hndl : Handle) (numPages : UInt32)
  | getHndlNPages (hndl : Handle)
  | unsetHndlNPages (hndl : Handle)
  | containsKey (hndl : Handle)
  | mmap (len : Nat)
  | munmap (addr len : Nat)
  | memcpyFrom (addr : Nat)
  | memcpyTo (addr : Nat) (data : Page)

/-- The answer an operation returns. -/
@[reducible] def ServerOp.Res : ServerOp → Type
  | .getNewHandle => UInt32
  | .setAddrMap _ _ => Unit
  | .getAddrMap _ => Nat
  | .unsetAddrMap _ => Unit
  | .setHndlNPages _ _ => Unit
  | .getHndlNPages _ => UInt32
  | .unsetHndlNPages _ => Unit
  | .containsKey _ => Bool
  | .mmap _ => Option Nat
  | .munmap _ _ => Bool
  | .memcpyFrom _ => Page
  | .memcpyTo _ _ => Unit

abbrev ServerM := Program ServerOp.Res

/-- A `u32` handle count converted to `rmp::handle`. -/
def handleOfCount (n : UInt32) : Handle := n.toNat

def ServerOp.call (op : ServerOp) : ServerM op.Res := Program.perform op

namespace Server

def getNewHandle : ServerM UInt32 := ServerOp.getNewHandle.call
def setAddrMap (hndl : Handle) (addr : Nat) : ServerM Unit := (ServerOp.setAddrMap hndl addr).call
def getAddrMap (hndl : Handle) : ServerM Nat := (ServerOp.getAddrMap hndl).call
def unsetAddrMap (hndl : Handle) : ServerM Unit := (ServerOp.unsetAddrMap hndl).call
def setHndlNPages (hndl : Handle) (numPages : UInt32) : ServerM Unit :=
  (ServerOp.setHndlNPages hndl numPages).call
def getHndlNPages (hndl : Handle) : ServerM UInt32 := (ServerOp.getHndlNPages hndl).call
def unsetHndlNPages (hndl : Handle) : ServerM Unit := (ServerOp.unsetHndlNPages hndl).call
def containsKey (hndl : Handle) : ServerM Bool := (ServerOp.containsKey hndl).call
def mmap (len : Nat) : ServerM (Option Nat) := (ServerOp.mmap len).call
def munmap (addr len : Nat) : ServerM Bool := (ServerOp.munmap addr len).call
def memcpyFrom (addr : Nat) : ServerM Page := (ServerOp.memcpyFrom addr).call
def memcpyTo (addr : Nat) (data : Page) : ServerM Unit := (ServerOp.memcpyTo addr data).call

/-- `rmp::Server::alloc`. The product is a `u32`; the loop over the pages has no body. -/
def alloc (npages pageSize : UInt32) : ServerM Handle := do
  let memRegionSize := (npages * pageSize).toNat
  let remoteMemRegion ← mmap memRegionSize
  match remoteMemRegion with
  | none => return -1
  | some addr =>
    let newHandle ← getNewHandle
    setAddrMap (handleOfCount newHandle) addr
    setHndlNPages (handleOfCount newHandle) npages
    return handleOfCount newHandle

/-- The address `addr + (packet->size * offset)`: a `u32` product added to a `ul`. -/
def addrWithOffset (addr : Nat) (size offset : UInt32) : Nat :=
  (addr + (size * offset).toNat) % 2 ^ 64

/-- `rmp::Server::read`. -/
def read (hndl : Handle) (packet : Packet) : ServerM (Int × Packet) := do
  let npages ← getHndlNPages hndl
  let addr ← getAddrMap hndl
  if packet.offset ≥ npages then
    return (-1, packet)
  else
    let data ← memcpyFrom (addrWithOffset addr packet.size packet.offset)
    return (0, { packet with data := data })

/-- `rmp::Server::write`. -/
def write (hndl : Handle) (packet : Packet) : ServerM Int := do
  let npages ← getHndlNPages hndl
  let addr ← getAddrMap hndl
  if packet.offset ≥ npages then
    return -1
  else
    memcpyTo (addrWithOffset addr packet.size packet.offset) packet.data
    return 0

/-- `rmp::Server::free`. The length is a `u32` product converted to `long`. -/
def free (hndl : Handle) (pageSize : UInt32) : ServerM Int := do
  if ← containsKey hndl then
    let npages ← getHndlNPages hndl
    if npages = 0 then
      return -1
    else
      let addr ← getAddrMap hndl
      if ← munmap addr (npages * pageSize).toNat then
        unsetAddrMap hndl
        unsetHndlNPages hndl
        return 0
      else
        return -1
  else
    return -1

def handleAlloc (packet : Packet) : ServerM Packet := do
  let newHndl ← alloc packet.npages packet.size
  if newHndl = -1 then
    return { packet with error := allocFailed }
  else
    return { packet with hndl := newHndl }

def handleRead (packet : Packet) : ServerM Packet := do
  if ← containsKey packet.hndl then
    let (readSuc, packet) ← read packet.hndl packet
    if readSuc = -1 then
      return { packet with error := readFailed }
    else
      return packet
  else
    return { packet with error := invalidHandle }

def handleWrite (packet : Packet) : ServerM Packet := do
  if ← containsKey packet.hndl then
    let writeSuc ← write packet.hndl packet
    if writeSuc = -1 then
      return { packet with error := writeFailed }
    else
      return packet
  else
    return { packet with error := invalidHandle }

def handleFree (packet : Packet) : ServerM Packet := do
  if ← containsKey packet.hndl then
    let freeSuc ← free packet.hndl packet.size
    if freeSuc = -1 then
      return { packet with error := freeFailed }
    else
      return packet
  else
    return { packet with error := invalidHandle }

/-- `rmp::Server::handle`; the packet is updated in place and returned. -/
def handle (packet : Packet) : ServerM Packet :=
  if packet.action = 0 then handleAlloc packet
  else if packet.action = 1 then handleRead packet
  else if packet.action = 2 then handleWrite packet
  else if packet.action = 3 then handleFree packet
  else return { packet with error := unknownAction }

end Server

/-! ### Execution -/

/-- The kernel's answers to the `mmap` and the `munmap` of one call. -/
structure Os where
  mmapAnswer : Option Nat
  munmapAnswer : Bool

/-- The effect of one atomic operation. `getAddrMap` and `getHndlNPages` read through
`operator[]`, which inserts a default entry for a missing key. -/
def ServerOp.exec (os : Os) : (op : ServerOp) → Host → op.Res × Host
  | .getNewHandle, w =>
    (w.server.handleCount, { w with server.handleCount := w.server.handleCount + 1 })
  | .setAddrMap h a, w => ((), { w with server.addrMap := w.server.addrMap.set h a })
  | .getAddrMap h, w =>
    (w.server.addrMap.index 0 h, { w with server.addrMap := w.server.addrMap.indexed 0 h })
  | .unsetAddrMap h, w => ((), { w with server.addrMap := w.server.addrMap.erase h })
  | .setHndlNPages h n, w => ((), { w with server.hndlNPages := w.server.hndlNPages.set h n })
  | .getHndlNPages h, w =>
    (w.server.hndlNPages.index 0 h,
      { w with server.hndlNPages := w.server.hndlNPages.indexed 0 h })
  | .unsetHndlNPages h, w => ((), { w with server.hndlNPages := w.server.hndlNPages.erase h })
  | .containsKey h, w => (decide (w.server.addrMap.Contains h), w)
  | .mmap len, w =>
    ((w.space.mmap len os.mmapAnswer).1, { w with space := (w.space.mmap len os.mmapAnswer).2 })
  | .munmap a len, w =>
    ((w.space.munmap a len os.munmapAnswer).1,
      { w with space := (w.space.munmap a len os.munmapAnswer).2 })
  | .memcpyFrom a, w => (w.space.memcpyFrom a, w)
  | .memcpyTo a data, w => ((), { w with space := w.space.memcpyTo a data })

/-- One call of `rmp::Server::handle` that nothing interferes with. -/
def Host.handle (os : Os) (w : Host) (packet : Packet) : Packet × Host :=
  (Server.handle packet).run (ServerOp.exec os) w

/-- The kernel's answer to the `mmap` of a call is one it may give. -/
def Os.Admissible (os : Os) (w : Host) (packet : Packet) : Prop :=
  packet.action = 0 → w.space.MmapAnswer (packet.npages * packet.size).toNat os.mmapAnswer

/-- A call with the kernel's answers and its reply. -/
structure Call where
  os : Os
  packet : Packet
  reply : Packet

/-- The server handles one packet after another. -/
def Host.Step (w : Host) (c : Call) (w' : Host) : Prop :=
  c.os.Admissible w c.packet ∧ w.handle c.os c.packet = (c.reply, w')

/-- A successful `mmap` does not return null. -/
def Os.NonNull (os : Os) : Prop := ∀ a, os.mmapAnswer = some a → a ≠ 0

/-- The server handles one packet after another, whatever else `mmap` and `munmap` answer. -/
def Host.NonNullStep (w : Host) (c : Call) (w' : Host) : Prop :=
  c.os.NonNull ∧ w.handle c.os c.packet = (c.reply, w')

/-- The calls and the final state when the given packets are handled in order. -/
def Host.handleAll (w : Host) : List (Os × Packet) → List (Host × Call) × Host
  | [] => ([], w)
  | (os, packet) :: rest =>
    let r := w.handle os packet
    let t := r.2.handleAll rest
    ((w, ⟨os, packet, r.1⟩) :: t.1, t.2)

end RemoteMemoryPool
