import RemoteMemoryPool.Model.Packet

/-!
# The server's address space

The part of the kernel the server relies on: anonymous private mappings made by `mmap`,
`munmap`, and the bytes they hold. Whether a call succeeds, and where a mapping is
placed, is answered by the kernel; `MmapAnswer` states what its answers promise.
-/

namespace RemoteMemoryPool

/-- Lengths are rounded up to whole pages by `mmap` and `munmap`. -/
def pageRound (len : Nat) : Nat := (len + 4095) / 4096 * 4096

/-- The bytes of the mapping at `a` of length `len`. -/
def inRegion (a len x : Nat) : Bool := decide (a ≤ x) && decide (x < a + pageRound len)

/-- Bytes mapped through `mmap` and not unmapped, and the contents of memory. -/
structure AddressSpace where
  mapped : Nat → Bool
  mem : Nat → UInt8

namespace AddressSpace

/-- `mmap(NULL, len, PROT_READ | PROT_WRITE, MAP_PRIVATE | MAP_ANONYMOUS, -1, 0)`. A mapping
of length 0 fails; otherwise `answer` is the address chosen by the kernel, `none` standing
for `MAP_FAILED`. -/
def mmap (v : AddressSpace) (len : Nat) (answer : Option Nat) : Option Nat × AddressSpace :=
  if len = 0 then (none, v)
  else
    match answer with
    | none => (none, v)
    | some a =>
      (some a, ⟨fun x => inRegion a len x || v.mapped x, fun x => if inRegion a len x then 0 else v.mem x⟩)

/-- What the kernel promises about the answer to `mmap`. -/
def MmapAnswer (v : AddressSpace) (len : Nat) (answer : Option Nat) : Prop :=
  ∀ a, answer = some a → a ≠ 0 ∧ a % 4096 = 0 ∧ a + pageRound len ≤ 2 ^ 64 ∧
    ∀ x, inRegion a len x = true → v.mapped x = false

/-- `munmap(a, len)`; returns whether the range was unmapped. Length 0 and an unaligned
address are errors; other failures are the kernel's `answer`. -/
def munmap (v : AddressSpace) (a len : Nat) (answer : Bool) : Bool × AddressSpace :=
  if len = 0 ∨ a % 4096 ≠ 0 ∨ answer = false then (false, v)
  else (true, { v with mapped := fun x => !inRegion a len x && v.mapped x })

/-- `memcpy(packet->data, a, sizeof(packet->data))`. -/
def memcpyFrom (v : AddressSpace) (a : Nat) : Page := fun i => v.mem (a + i)

/-- `memcpy(a, packet->data, sizeof(packet->data))`. -/
def memcpyTo (v : AddressSpace) (a : Nat) (data : Page) : AddressSpace :=
  { v with mem := fun x => if h : a ≤ x ∧ x - a < 4096 then data ⟨x - a, h.2⟩ else v.mem x }

lemma mmap_none_snd (v : AddressSpace) (len : Nat) (answer : Option Nat)
    (h : (v.mmap len answer).1 = none) : (v.mmap len answer).2 = v := by
  unfold mmap at h ⊢
  split
  · rfl
  · cases answer with
    | none => rfl
    | some a => simp_all

lemma mmap_some_fst (v : AddressSpace) (len : Nat) (answer : Option Nat) (a : Nat)
    (h : (v.mmap len answer).1 = some a) : len ≠ 0 ∧ answer = some a := by
  unfold mmap at h
  split at h
  · simp at h
  · cases answer with
    | none => simp at h
    | some b => simp_all

lemma munmap_false_snd (v : AddressSpace) (a len : Nat) (answer : Bool)
    (h : (v.munmap a len answer).1 = false) : (v.munmap a len answer).2 = v := by
  unfold munmap at h ⊢
  split at h <;> simp_all

lemma mmap_some {len a : Nat} (v : AddressSpace) (hlen : len ≠ 0) :
    (v.mmap len (some a)).1 = some a := by
  simp [mmap, hlen]

lemma mmap_snd {len : Nat} (v : AddressSpace) (hlen : len ≠ 0) (b : Nat) :
    (v.mmap len (some b)).2 =
      ⟨fun x => inRegion b len x || v.mapped x,
        fun x => if inRegion b len x then 0 else v.mem x⟩ := by
  simp [mmap, hlen]

lemma munmap_true {v : AddressSpace} {a len : Nat} {answer : Bool}
    (h : (v.munmap a len answer).1 = true) :
    len ≠ 0 ∧ answer = true ∧
      (v.munmap a len answer).2.mapped = fun x => !inRegion a len x && v.mapped x := by
  unfold munmap at h ⊢
  split at h
  · simp at h
  · next hn =>
    rw [not_or, not_or] at hn
    simp [hn]

end AddressSpace

lemma inRegion_iff (a len x : Nat) : inRegion a len x = true ↔ a ≤ x ∧ x < a + pageRound len := by
  simp [inRegion]

end RemoteMemoryPool
