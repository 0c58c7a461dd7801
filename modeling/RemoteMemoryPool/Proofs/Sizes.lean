import RemoteMemoryPool.Model.Preload
import RemoteMemoryPool.Proofs.ClientSpec

/-!
# Sizes of allocations

How many bytes the server maps for the pages it records, and how many the preload library's
`malloc` asks for: the first is a product of two `u32`, the second is computed in `float`.
-/

namespace RemoteMemoryPool.Proofs

open Interaction Transition

/-! ### The server's product -/

section Alloc

variable (os : Os) (w : Host) (npages size : UInt32)

/-- What `rmp::Server::alloc` returns, and the state it leaves. -/
def allocation : Handle × Host := (Server.alloc npages size).run (ServerOp.exec os) w

/-- The byte is mapped by the call of `rmp::Server::alloc`. -/
def NewlyMapped (x : Nat) : Prop :=
  (allocation os w npages size).2.space.mapped x = true ∧ w.space.mapped x = false

/-- The region recorded for the new handle has `npages * size` bytes; it is as long as the region
`rmp_alloc` maps for the same request, and it has all pages whose offset passes the check of
`read` and `write`. -/
def CoversRequest : Prop :=
  ∃ a n, Live (allocation os w npages size).2.server (allocation os w npages size).1 a n ∧
    (∀ i < npages.toNat * size.toNat, NewlyMapped os w npages size (a + i)) ∧
    (size = 4096 → (Client.rmpAlloc npages).OnlyPerforms
      (fun op => ∀ len, op = .mmap len → ∀ i < len, NewlyMapped os w npages size (a + i))) ∧
    ∀ offset < n, ∀ i < size.toNat,
      NewlyMapped os w npages size (a + offset.toNat * size.toNat + i)

variable {os w npages size}

lemma allocation_granted {a : Nat} (hlen : (npages * size).toNat ≠ 0)
    (hm : os.mmapAnswer = some a) :
    allocation os w npages size =
      (handleOfCount w.server.handleCount, ⟨Server.alloced w.server npages a,
        (w.space.mmap (npages * size).toNat (some a)).2⟩) := by
  rw [allocation, run_alloc, hm]
  have hfst := w.space.mmap_some (a := a) hlen
  generalize w.space.mmap (npages * size).toNat (some a) = x at hfst
  obtain ⟨r, v⟩ := x
  obtain rfl : r = some a := hfst
  rfl

lemma newlyMapped_iff {a : Nat} (hlen : (npages * size).toNat ≠ 0) (hm : os.mmapAnswer = some a)
    (hans : w.space.MmapAnswer (npages * size).toNat os.mmapAnswer) (x : Nat) :
    NewlyMapped os w npages size x ↔ a ≤ x ∧ x < a + pageRound (npages * size).toNat := by
  rw [NewlyMapped, allocation_granted hlen hm, AddressSpace.mmap_snd _ hlen, ← inRegion_iff]
  obtain ⟨-, -, -, hfree⟩ := hans a hm
  constructor
  · rintro ⟨hx, hold⟩
    simpa [hold] using hx
  · intro hx
    exact ⟨by simp only [hx, Bool.true_or], hfree x hx⟩

end Alloc

/-- A successful `rmp::Server::alloc` maps as many bytes as were asked for exactly when their
number, as a product of natural numbers, fits into a `u32`. -/
theorem covers_request_iff (os : Os) (w : Host) (npages size : UInt32)
    (hans : w.space.MmapAnswer (npages * size).toNat os.mmapAnswer)
    (hsucc : (allocation os w npages size).1 ≠ -1) :
    CoversRequest os w npages size ↔ npages.toNat * size.toNat < 2 ^ 32 := by
  obtain ⟨hlen, a, hm⟩ := (alloc_ne_neg_one_iff os w npages size).mp hsucc
  have hnew := newlyMapped_iff hlen hm hans
  have hlive : Live (allocation os w npages size).2.server (allocation os w npages size).1 a npages := by
    rw [allocation_granted hlen hm]
    exact live_alloced.mpr (Or.inl ⟨rfl, rfl, rfl⟩)
  constructor
  · rintro ⟨b, n, hlive', hbytes, -, -⟩
    obtain ⟨rfl, -⟩ := hlive.unique hlive'
    by_contra hge
    have hlt : (npages * size).toNat < 2 ^ 32 := UInt32.toNat_lt _
    have hround := pageRound_le hlt
    have hmod : (npages * size).toNat = npages.toNat * size.toNat % 2 ^ 32 := UInt32.toNat_mul _ _
    -- the byte after the mapped region, which is short of the request
    have hbyte := (hnew _).mp (hbytes (pageRound (npages * size).toNat) (by omega))
    omega
  · intro hlt
    have hexact := toNat_mul_of_lt hlt
    have hround := le_pageRound (npages * size).toNat
    have hall (i : Nat) (hi : i < npages.toNat * size.toNat) :
        NewlyMapped os w npages size (a + i) := (hnew _).mpr (by omega)
    refine ⟨a, npages, hlive, hall, ?_, ?_⟩
    · rintro rfl
      apply rmpAlloc_onlyPerforms
      · rintro len hlen' i hi
        obtain rfl : npages.toNat * 4096 = len := by simpa using hlen'
        exact hall i hi
      · intro op hop len hlen'
        exact absurd hlen' (hop.1 len)
    · intro offset ho i hi
      rw [Nat.add_assoc]
      apply hall
      have hoff : offset.toNat + 1 ≤ npages.toNat := UInt32.lt_iff_toNat_lt.mp ho
      calc offset.toNat * size.toNat + i < offset.toNat * size.toNat + size.toNat := by omega
        _ = (offset.toNat + 1) * size.toNat := by ring
        _ ≤ npages.toNat * size.toNat := Nat.mul_le_mul_right _ hoff

theorem three_pages_covered :
    CoversRequest ⟨some 4096, true⟩ (Host.fresh fun _ => 0) 3 4096 :=
  (covers_request_iff _ _ 3 4096 (fresh_mmapAnswer _ (UInt32.toNat_lt _)) (by decide +kernel)).mpr
    (by decide)

/-- For `2 ^ 20 + 1` pages the server maps one page and records all of them. -/
theorem large_request_not_covered :
    ¬∀ (os : Os) (w : Host) (npages size : UInt32),
      w.space.MmapAnswer (npages * size).toNat os.mmapAnswer →
        (allocation os w npages size).1 ≠ -1 → CoversRequest os w npages size := by
  intro hall
  obtain ⟨a, n, hlive, hbytes, -⟩ := hall ⟨some 4096, true⟩ (Host.fresh fun _ => 0) (2 ^ 20 + 1) 4096
    (fresh_mmapAnswer _ (UInt32.toNat_lt _)) (by decide +kernel)
  have hlive' : Live (allocation ⟨some 4096, true⟩ (Host.fresh fun _ => 0) (2 ^ 20 + 1) 4096).2.server
      (allocation ⟨some 4096, true⟩ (Host.fresh fun _ => 0) (2 ^ 20 + 1) 4096).1 4096 (2 ^ 20 + 1) :=
    ⟨by decide +kernel, by decide +kernel⟩
  obtain ⟨rfl, -⟩ := hlive'.unique hlive
  have hbyte := (hbytes 4096 (by decide +kernel)).1
  revert hbyte
  decide +kernel

/-! ### The pages `malloc` asks for -/

section Malloc

/-- The distance of neighbouring `float` values around `size`, where it is at least 1. -/
def ulp (size : Nat) : Nat := 2 ^ (Nat.log2 size + 1 - 24)

/-- The page count of the size is 0 as a `u32`: the size is rounded to a multiple of `2 ^ 44`. -/
def AsksNone (size : Nat) : Prop :=
  2 * (size % 2 ^ 44) ≤ ulp size ∨ 2 ^ 45 ≤ 2 * (size % 2 ^ 44) + ulp size

/-- The size fills its last unit of `ulp`, or of a page where these are longer, or is not rounded
down in it. -/
def NotRoundedDown (size : Nat) : Prop :=
  let r := size % max (ulp size) 4096
  r = 0 ∨ ulp size < 2 * r ∨ (2 * r = ulp size ∧ size / ulp size % 2 = 1)

/-- The length of the region `malloc` asks `rmp_alloc` for. -/
def mallocLength (size : Nat) : Nat := (UInt32.ofNat (Preload.mallocPages size)).toNat * 4096

lemma mallocLength_eq (size : Nat) :
    mallocLength size = Preload.mallocPages size % 2 ^ 32 * 4096 := by
  rw [mallocLength, UInt32.toNat_ofNat']

/-- Which sizes lie within the pages their `float` asks for. -/
lemma le_pages_iff (size : Nat) :
    size ≤ Preload.mallocPages size * 4096 ↔ NotRoundedDown size := by
  simp only [Preload.mallocPages, Rounding.roundToFormat, NotRoundedDown, ulp]
  generalize Nat.log2 size + 1 - 24 = e
  by_cases he : 12 ≤ e
  · have hpow : 4096 ∣ 2 ^ e := Nat.pow_dvd_pow 2 he
    have hmax : max (2 ^ e) 4096 = 2 ^ e := max_eq_left (Nat.le_of_dvd (Nat.two_pow_pos e) hpow)
    have hdvd : 4096 ∣ Rounding.roundToMultiple e size := hpow.trans Rounding.dvd_roundToMultiple
    have hpages : (Rounding.roundToMultiple e size + 4095) / 4096 * 4096 =
        Rounding.roundToMultiple e size := by omega
    rw [hpages, hmax, Rounding.le_roundToMultiple_iff]
  · have hpow : 2 * 2 ^ e ∣ 4096 := by
      rw [← pow_succ']
      exact Nat.pow_dvd_pow 2 (by omega : e + 1 ≤ 12)
    have hmax : max (2 ^ e) 4096 = 4096 :=
      max_eq_right ((Nat.le_mul_of_pos_left _ (by decide)).trans (Nat.le_of_dvd (by decide) hpow))
    have hsize := Nat.div_add_mod size 4096
    have hround : Rounding.roundToMultiple e size =
        4096 * (size / 4096) + Rounding.roundToMultiple e (size % 4096) := by
      rw [← Rounding.roundToMultiple_add (hpow.trans (Nat.dvd_mul_right _ _)), hsize]
    have hzero := Rounding.roundToMultiple_eq_zero_iff (e := e) (n := size % 4096)
    have hlt : size % 4096 < 4096 := Nat.mod_lt _ (by decide)
    -- a tie within the page is broken downwards: the quotient is even
    have htie : ¬(2 * (size % 4096) = 2 ^ e ∧ size / 2 ^ e % 2 = 1) := by
      rintro ⟨hhalf, hodd⟩
      obtain ⟨k, hk⟩ := hpow
      have hmul : size = 2 ^ e * (2 * (k * (size / 4096))) + size % 4096 := by
        calc size = 2 * 2 ^ e * k * (size / 4096) + size % 4096 := by rw [← hk, hsize]
          _ = 2 ^ e * (2 * (k * (size / 4096))) + size % 4096 := by ring
      have hu := Nat.two_pow_pos e
      have hrest : size % 4096 / 2 ^ e = 0 := Nat.div_eq_of_lt (by omega)
      have hdiv : size / 2 ^ e = 2 * (k * (size / 4096)) := by
        conv_lhs => rw [hmul]
        rw [Nat.mul_add_div hu, hrest, Nat.add_zero]
      omega
    rw [hround, hmax]
    generalize Rounding.roundToMultiple e (size % 4096) = rounded at hzero
    omega

lemma mallocPages_eq_zero_iff {size : Nat} (hsize : size < 2 ^ 64) :
    Preload.mallocPages size % 2 ^ 32 = 0 ↔ AsksNone size := by
  have hlog : size < 2 ^ (Nat.log2 size + 1) := Nat.lt_log2_self
  have hbound : Nat.log2 size < 64 := by
    by_cases h0 : size = 0
    · simp [h0]
    · exact (Nat.log2_lt h0).mpr hsize
  simp only [Preload.mallocPages, Rounding.roundToFormat, AsksNone, ulp]
  generalize he : Nat.log2 size + 1 - 24 = e
  have hpow : 2 * 2 ^ e ∣ 2 ^ 44 := by
    rw [← pow_succ']
    exact Nat.pow_dvd_pow 2 (by omega)
  have hsplit := Nat.div_add_mod size (2 ^ 44)
  have hlt : size % 2 ^ 44 < 2 ^ 44 := Nat.mod_lt _ (by decide)
  have hround : Rounding.roundToMultiple e size =
      2 ^ 44 * (size / 2 ^ 44) + Rounding.roundToMultiple e (size % 2 ^ 44) := by
    rw [← Rounding.roundToMultiple_add (hpow.trans (Nat.dvd_mul_right _ _)), hsplit]
  have hzero := Rounding.roundToMultiple_eq_zero_iff (e := e) (n := size % 2 ^ 44)
  have htop := Rounding.roundToMultiple_eq_iff hpow hlt
  have hle := Rounding.roundToMultiple_le (dvd_of_mul_left_dvd hpow) hlt.le
  rw [hround]
  by_cases hstep : 12 ≤ e
  · have hdvd : 4096 ∣ Rounding.roundToMultiple e (size % 2 ^ 44) :=
      (Nat.pow_dvd_pow 2 hstep).trans Rounding.dvd_roundToMultiple
    generalize Rounding.roundToMultiple e (size % 2 ^ 44) = rounded at hzero htop hle hdvd
    omega
  · -- a size this small is far below `2 ^ 44`
    have hsmall : size < 2 ^ 36 := hlog.trans_le (Nat.pow_le_pow_right (by decide) (by omega))
    have hmod : size % 2 ^ 44 = size := Nat.mod_eq_of_lt (by omega)
    have hdvd : 2 ^ e ∣ 2 ^ 36 := Nat.pow_dvd_pow 2 (by omega)
    have hle' := Rounding.roundToMultiple_le (n := size) hdvd hsmall.le
    rw [hmod] at hzero htop hle ⊢
    generalize Rounding.roundToMultiple e size = rounded at hzero htop hle hle'
    omega

lemma mallocPages_le {size : Nat} (hsize : size < 2 ^ 44) : Preload.mallocPages size ≤ 2 ^ 32 := by
  have hlog : Nat.log2 size < 44 := by
    by_cases h0 : size = 0
    · simp [h0]
    · exact (Nat.log2_lt h0).mpr hsize
  have hdvd : 2 ^ (Nat.log2 size + 1 - 24) ∣ 2 ^ 44 := Nat.pow_dvd_pow 2 (by omega)
  have hle := Rounding.roundToMultiple_le hdvd hsize.le
  rw [Preload.mallocPages, Rounding.roundToFormat]
  omega

/-- The region `malloc` asks for is empty or has room for the size exactly under this condition. -/
lemma mallocLength_iff {size : Nat} (hsize : size < 2 ^ 64) :
    (mallocLength size ≠ 0 → size ≤ mallocLength size) ↔
      AsksNone size ∨ (size < 2 ^ 44 ∧ NotRoundedDown size) := by
  rw [mallocLength_eq, ← mallocPages_eq_zero_iff hsize, ← le_pages_iff]
  by_cases hlt : size < 2 ^ 44
  · have hle := mallocPages_le hlt
    omega
  · omega

end Malloc

/-! ### The region `malloc` returns -/

/-- The address and length of the region mapped last. A mapping of length 0 fails. -/
def MapsRegion : Option (Nat × Nat) → (op : ClientOp) → op.Res → Option (Nat × Nat) → Prop
  | q, .mmap len, r, q' => q' = if len = 0 then q else (r.map fun a => (a, len)).or q
  | q, _, _, q' => q' = q

/-- If a mapped region is returned, it has at least `size` bytes. -/
def RoomFor (size : Nat) (r : Client.AllocResult) (region : Option (Nat × Nat)) : Prop :=
  ∀ a len, r = .addr a → region = some (a, len) → size ≤ len

/-- The variables of a connected process whose main thread, with id 0, allocates remotely. -/
def remoteGlobals : Globals := { (System.init fun _ => 0).globals with hooked := true }

section Region

variable {q : Option (Nat × Nat)} {size : Nat}

lemma follows_registerRegion_iff (addr n : Nat) (P : Option (Nat × Nat) → Prop) :
    (Uffdman.registerRegion addr n).Follows MapsRegion q (fun _ q' => P q') ↔ P q := by
  simp only [Uffdman.registerRegion, Client.userfaultfd, Client.uffdioApi, Client.uffdioRegister,
    Client.pthreadCreate, Client.modify, ClientOp.call, Program.perform, Program.follows_bind,
    Program.follows_ite, Program.follows_pure, Program.Follows, MapsRegion, exists_eq_left]
  constructor
  · intro h
    exact (h (-1)).1 rfl
  · intro h
    simp [h]

lemma follows_rmpAlloc_iff (npages : UInt32) :
    (Client.rmpAlloc npages).Follows MapsRegion none (RoomFor size) ↔
      (npages.toNat * 4096 ≠ 0 → size ≤ npages.toNat * 4096) := by
  simp only [Client.rmpAlloc, Client.mmap, ClientOp.call, Program.perform, Program.follows_bind,
    Program.Follows, MapsRegion, exists_eq_left]
  generalize npages.toNat * 4096 = len
  constructor
  · intro h hlen
    have hregion := h (some 0)
    simp only [Client.get, Client.packetObject, Client.send, Client.recv, Client.modify,
      ClientOp.call, Program.perform, Program.follows_bind, Program.follows_ite,
      Program.follows_pure, Program.Follows, MapsRegion, exists_eq_left,
      follows_registerRegion_iff, hlen, if_false] at hregion
    have hpacket : Packet := ⟨0, 0, 0, 0, 0, zeroPage, 0⟩
    exact (hregion remoteGlobals).1 rfl hpacket () hpacket () () 0 len rfl rfl
  · intro h r
    cases r with
    | none => simp [RoomFor]
    | some a =>
      simp only [Client.get, Client.packetObject, Client.send, Client.recv, Client.modify,
        ClientOp.call, Program.perform, Program.follows_bind, Program.follows_ite,
        Program.follows_pure, Program.Follows, MapsRegion, exists_eq_left,
        follows_registerRegion_iff]
      intro g
      refine ⟨?_, ?_⟩
      · intro _ _ _ _ _ _ b len' _ hregion
        by_cases hlen : len = 0
        · simp [hlen] at hregion
        · obtain ⟨-, rfl⟩ : a = b ∧ len = len' := by simpa [hlen] using hregion
          exact h hlen
      · intro _ b len' hnull
        cases hnull

lemma follows_remoteMalloc_iff :
    (Preload.remoteMalloc size).Follows MapsRegion none (RoomFor size) ↔
      (mallocLength size ≠ 0 → size ≤ mallocLength size) := by
  rw [mallocLength, ← follows_rmpAlloc_iff]
  simp only [Preload.remoteMalloc, Client.lock, Client.modify, Client.unlock, ClientOp.call,
    Program.perform, Program.follows_bind, Program.follows_pure, Program.Follows, MapsRegion,
    exists_eq_left]
  constructor
  · intro h
    exact (h () ()).mono (fun _ _ hroom => hroom () () ())
  · intro h _ _
    exact h.mono (fun _ _ hroom _ _ _ => hroom)

lemma keeps_preloadlibInit_region : Preload.preloadlibInit.Keeps MapsRegion q := by
  simp only [Program.Keeps, Preload.preloadlibInit, Client.dlsym, Client.modify, Client.terminate,
    ClientOp.call, Program.perform, Program.follows_bind, Program.follows_ite, Program.Follows,
    MapsRegion, exists_eq_left]
  exact fun _ => ⟨fun _ _ => trivial, fun _ r => r.elim⟩

lemma keeps_connectOnce_region : Preload.connectOnce.Keeps MapsRegion q := by
  simp [Program.Keeps, Preload.connectOnce, Preload.rmpConnInit, Client.rmpInit, Uffdman.init,
    Client.lock, Client.modify, Client.pthreadSelf, Client.socket, Client.connect, Client.get,
    Client.unlock, ClientOp.call, Program.perform, Program.Follows, MapsRegion]

lemma keeps_checkConn_region : Preload.checkConn.Keeps MapsRegion q := by
  have hhook : Preload.hookOnce.Keeps MapsRegion q := by
    simp only [Program.Keeps, Preload.hookOnce, Client.get, ClientOp.call, Program.perform,
      Program.follows_bind, Program.follows_ite, Program.follows_pure, Program.Follows, MapsRegion,
      exists_eq_left]
    exact fun g => ⟨fun _ => trivial, fun _ => keeps_preloadlibInit_region⟩
  simp only [Program.Keeps, Preload.checkConn, Program.follows_bind]
  apply hhook.follows
  intro _
  apply keeps_connectOnce_region.follows
  intro _ g
  exact ⟨q, rfl, rfl⟩

lemma follows_localMalloc : (Preload.localMalloc size).Follows MapsRegion none (RoomFor size) := by
  simp only [Preload.localMalloc, Client.get, Client.stdlibMalloc, ClientOp.call, Program.perform,
    Program.follows_bind, Program.follows_ite, Program.follows_pure, Program.Follows, MapsRegion,
    exists_eq_left]
  have hnone (r : Client.AllocResult) : RoomFor size r none := by simp [RoomFor]
  exact fun g => ⟨fun _ a => hnone _, fun _ => keeps_preloadlibInit_region.follows (fun _ => hnone _)⟩

/-- A region `malloc` returns has room for the size exactly if the one it asks for is empty or
has. -/
lemma follows_malloc_iff :
    (Preload.malloc size).Follows MapsRegion none (RoomFor size) ↔
      (mallocLength size ≠ 0 → size ≤ mallocLength size) := by
  rw [← follows_remoteMalloc_iff]
  constructor
  · intro h
    simp only [Preload.malloc, Preload.checkConn, Preload.hookOnce, Preload.connectOnce, Client.get,
      Client.pthreadSelf, ClientOp.call, Program.perform, Program.follows_bind, Program.follows_ite,
      Program.follows_pure, Program.Follows, MapsRegion, exists_eq_left] at h
    -- a hooked and connected process, whose main thread makes the call
    have hhooked := ((h remoteGlobals).2 (by decide) remoteGlobals).1 rfl
    have hconnected := (hhooked remoteGlobals).2 (by decide) remoteGlobals
    exact (hconnected.1 (by decide) 0 remoteGlobals).2 (by decide)
  · intro h
    simp only [Preload.malloc, Client.get, Client.pthreadSelf, ClientOp.call, Program.perform,
      Program.follows_bind, Program.follows_ite, Program.follows_pure, Program.Follows, MapsRegion,
      exists_eq_left]
    intro g
    refine ⟨fun _ => follows_localMalloc, fun _ => ?_⟩
    apply keeps_checkConn_region.follows
    intro connected
    refine ⟨fun _ self g' => ⟨fun _ => follows_localMalloc, fun _ => h⟩, fun _ => ?_⟩
    intro a len hnull
    cases hnull

end Region

/-- A region returned by `malloc` of a size of `size_t` has room for it exactly if the size is
rounded to a multiple of `2 ^ 44`, and no page is asked for, or is below `2 ^ 44` and not rounded
down past the start of its last page. -/
theorem malloc_room_iff (size : UInt64) :
    (Preload.malloc size.toNat).Follows MapsRegion none (RoomFor size.toNat) ↔
      AsksNone size.toNat ∨ (size.toNat < 2 ^ 44 ∧ NotRoundedDown size.toNat) := by
  rw [follows_malloc_iff]
  exact mallocLength_iff size.toNat_lt

/-- The size `2 ^ 24 + 1` gets `2 ^ 24` bytes. -/
theorem malloc_rounds_down :
    ¬∀ size : UInt64, 0 < size →
      (Preload.malloc size.toNat).Follows MapsRegion none (RoomFor size.toNat) := by
  intro hall
  have hroom := follows_malloc_iff.mp (hall (2 ^ 24 + 1) (by decide))
  have hlen : mallocLength (2 ^ 24 + 1 : UInt64).toNat = 2 ^ 24 := by decide +kernel
  rw [hlen] at hroom
  exact absurd (hroom (by decide)) (by decide)

end RemoteMemoryPool.Proofs
