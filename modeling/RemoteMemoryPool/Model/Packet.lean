import Mathlib.Tactic.Ring

/-!
# Packets

The request and reply packet shared by the client and the server (`rmp_types.hpp`,
`rmp_client.hpp`, `rmp_server.hpp`) and its object representation: 4128 bytes, little
endian, the last four of them padding.
-/

namespace RemoteMemoryPool

/-- `rmp::handle`, a C `long`. -/
abbrev Handle := Int

/-- The 4096 bytes of `packet.data`, and of a page. -/
abbrev Page := Fin 4096 → UInt8

/-- The value of `PAGE_SIZE` and the page size of the server's kernel. -/
def pageSize : Nat := 4096

def zeroPage : Page := fun _ => 0

def allocFailed : UInt32 := 1
def readFailed : UInt32 := 2
def writeFailed : UInt32 := 3
def freeFailed : UInt32 := 4
def unknownAction : UInt32 := 5
def invalidHandle : UInt32 := 6

@[simp] lemma allocFailed_ne_zero : allocFailed ≠ 0 := by decide
@[simp] lemma readFailed_ne_zero : readFailed ≠ 0 := by decide
@[simp] lemma writeFailed_ne_zero : writeFailed ≠ 0 := by decide
@[simp] lemma freeFailed_ne_zero : freeFailed ≠ 0 := by decide
@[simp] lemma unknownAction_ne_zero : unknownAction ≠ 0 := by decide
@[simp] lemma invalidHandle_ne_zero : invalidHandle ≠ 0 := by decide

/-- `rmp::packet`; action 0 maps, 1 gets, 2 puts and 3 frees. -/
@[ext]
structure Packet where
  hndl : Handle
  npages : UInt32
  size : UInt32
  offset : UInt32
  action : UInt32
  data : Page
  error : UInt32

/-! ### Object representation -/

/-- `sizeof(rmp::packet)`. -/
def sizeofPacket : Nat := 4128

/-- The value of a little-endian byte sequence. -/
def leNat : List UInt8 → Nat
  | [] => 0
  | b :: bs => b.toNat + 256 * leNat bs

/-- The `k` low bytes of `n`, least significant first. -/
def leBytes : Nat → Nat → List UInt8
  | 0, _ => []
  | k + 1, n => UInt8.ofNat n :: leBytes k (n / 256)

/-- The C `long` with the given 64-bit pattern. -/
def longOfBits (n : Nat) : Int := if n < 2 ^ 63 then n else (n : Int) - 2 ^ 64

/-- The 64-bit pattern of a C `long`. -/
def bitsOfLong (z : Int) : Nat := (z % 2 ^ 64).toNat

/-- The packet stored in a buffer of `sizeof(rmp::packet)` bytes. -/
def Packet.ofBytes (buf : List UInt8) : Packet where
  hndl := longOfBits (leNat (buf.take 8))
  npages := UInt32.ofNat (leNat ((buf.drop 8).take 4))
  size := UInt32.ofNat (leNat ((buf.drop 12).take 4))
  offset := UInt32.ofNat (leNat ((buf.drop 16).take 4))
  action := UInt32.ofNat (leNat ((buf.drop 20).take 4))
  data := fun i => buf.getD (24 + i) 0
  error := UInt32.ofNat (leNat ((buf.drop 4120).take 4))

/-- The bytes of a packet object whose padding holds `padding`. -/
def Packet.toBytes (p : Packet) (padding : List UInt8) : List UInt8 :=
  leBytes 8 (bitsOfLong p.hndl) ++ leBytes 4 p.npages.toNat ++ leBytes 4 p.size.toNat ++
    leBytes 4 p.offset.toNat ++ leBytes 4 p.action.toNat ++ List.ofFn p.data ++
    leBytes 4 p.error.toNat ++ padding

/-- The padding of a packet object. -/
def paddingOf (buf : List UInt8) : List UInt8 := buf.drop 4124

end RemoteMemoryPool
