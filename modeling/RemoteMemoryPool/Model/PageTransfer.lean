import RemoteMemoryPool.Model.Client
import RemoteMemoryPool.Model.Server

/-!
# Page transfers at any page size

`PAGE_SIZE` is `sysconf(_SC_PAGE_SIZE)`, and the array `packet.data` has 4096 bytes on every
system. Here the page size is the parameter `pageSize` of `rmp_write_page` and `rmp_read_page`,
which `Client` has at 4096, and the copies to and from the array are operations of their own. A
copy that runs past the end of the array is undefined behaviour: of such a copy the model says
which bytes of the array it sets, and leaves open what it reads behind the array.
-/

namespace RemoteMemoryPool

open Interaction

/-- `sizeof(packet.data)`. -/
def sizeofData : Nat := 4096

inductive TransferOp
  | connected
  | packetObject
  | memcpyToData (data : Page) (len : Nat)
  | memcpyFromData (data : Page) (len : Nat)
  | send (packet : Packet)
  | recv

/-- The answer an operation returns; a copy to `data` returns the array as it is afterwards. -/
@[reducible] def TransferOp.Res : TransferOp → Type
  | .connected => Bool
  | .packetObject => Packet
  | .memcpyToData _ _ => Page
  | .memcpyFromData _ _ => Unit
  | .send _ => Unit
  | .recv => Packet

abbrev TransferM := Program TransferOp.Res

namespace PageTransfer

def connected : TransferM Bool := Program.perform TransferOp.connected
def packetObject : TransferM Packet := Program.perform TransferOp.packetObject
def memcpyToData (data : Page) (len : Nat) : TransferM Page :=
  Program.perform (TransferOp.memcpyToData data len)
def memcpyFromData (data : Page) (len : Nat) : TransferM Unit :=
  Program.perform (TransferOp.memcpyFromData data len)
def send (packet : Packet) : TransferM Unit := Program.perform (TransferOp.send packet)
def recv : TransferM Packet := Program.perform TransferOp.recv

/-- `rmp_write_page`. -/
def rmpWritePage (pageSize : Nat) (hd : Handle) (offset : Nat) : TransferM Unit := do
  if ← connected then
    let sendPkt ← packetObject
    let data ← memcpyToData sendPkt.data pageSize
    send { sendPkt with
      action := 2
      data := data
      size := UInt32.ofNat pageSize
      offset := UInt32.ofNat offset
      error := 0
      hndl := hd }
    let _ ← recv
    return ()
  else
    return ()

/-- `rmp_read_page`. -/
def rmpReadPage (pageSize : Nat) (hd : Handle) (offset : Nat) : TransferM Unit := do
  if ← connected then
    let sendPkt ← packetObject
    send { sendPkt with
      action := 1
      offset := UInt32.ofNat offset
      size := UInt32.ofNat pageSize
      error := 0
      hndl := hd }
    let returnPkt ← recv
    memcpyFromData returnPkt.data pageSize
  else
    return ()

/-- `rmp::Client::rmp_write`. -/
def rmpWrite (pageSize : Nat) (hd : Handle) (offset : Nat) : TransferM Unit :=
  rmpWritePage pageSize hd offset

/-- `rmp::Client::rmp_read`. -/
def rmpRead (pageSize : Nat) (hd : Handle) (offset : Nat) : TransferM Unit :=
  rmpReadPage pageSize hd offset

/-- The request `rmp_alloc` sends for `npages` pages; `sendPkt` is the object on the stack. -/
def allocRequest (pageSize : Nat) (npages : UInt32) (sendPkt : Packet) : Packet :=
  { sendPkt with action := 0, npages := npages, size := UInt32.ofNat pageSize }

end PageTransfer

/-- What a transfer meets: whether the client is connected, the indeterminate contents of its
packet object, the bytes that follow the `data` of the reply in memory, and the kernel's answers
to the server. -/
structure TransferEnv where
  connected : Bool
  packetObject : Packet
  behindData : Nat → UInt8
  serverOs : Os

/-- The byte `j` bytes after the beginning of `data`. -/
def TransferEnv.fromData (env : TransferEnv) (data : Page) (j : Nat) : UInt8 :=
  if hj : j < sizeofData then data ⟨j, hj⟩ else env.behindData (j - sizeofData)

/-- The server, the bytes from the caller's `page` on, and the reply that waits to be received. -/
structure Transfer where
  host : Host
  page : Nat → UInt8
  reply : Packet

/-- The effect of one operation. The server handles a request as soon as it is sent. -/
def TransferOp.exec (env : TransferEnv) : (op : TransferOp) → Transfer → op.Res × Transfer
  | .connected, t => (env.connected, t)
  | .packetObject, t => (env.packetObject, t)
  | .memcpyToData data len, t => (fun j => if j < len then t.page j else data j, t)
  | .memcpyFromData data len, t =>
    ((), { t with page := fun j => if j < len then env.fromData data j else t.page j })
  | .send packet, t =>
    let r := t.host.handle env.serverOs packet
    ((), { t with host := r.2, reply := r.1 })
  | .recv, t => (t.reply, t)

/-- The transfer after a program has been executed. -/
def Transfer.execute (env : TransferEnv) (t : Transfer) (x : TransferM Unit) : Transfer :=
  (x.run (TransferOp.exec env) t).2

/-- The number of bytes an operation copies to or from `data`. -/
def TransferOp.copied : TransferOp → Option Nat
  | .memcpyToData _ len => some len
  | .memcpyFromData _ len => some len
  | _ => none

/-- The lengths of the copies to and from `data` a program makes, each starting at the first byte
of the array. -/
def Transfer.copies (env : TransferEnv) (t : Transfer) (x : TransferM Unit) : List Nat :=
  (x.performed (TransferOp.exec env) t).filterMap (fun y => y.2.copied)

end RemoteMemoryPool
