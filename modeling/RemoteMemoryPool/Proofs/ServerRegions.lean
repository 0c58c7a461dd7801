import RemoteMemoryPool.Proofs.ServerSpec

/-!
# The regions behind the handles

A run of the server is followed together with the region each handle's allocation mapped
(`Tracked`). Reads and writes compute their address from the `size` field of their own
packet, and frees their length, so neither is bound to the region the allocation mapped:
`memcpys_confined_iff` says exactly when the accesses of a run stay inside it, and
`mapped_exactly_iff` exactly when the mapped bytes stay those of the live handles.
-/

namespace RemoteMemoryPool.Proofs

open Interaction Transition

/-- A server process with the address and the length given to `mmap` by the latest
successful `alloc` of each handle, and the number of `alloc` requests handled. -/
structure Tracked where
  host : Host
  region : Handle → Nat × Nat
  allocs : Nat

def Tracked.fresh (mem : Nat → UInt8) : Tracked := ⟨Host.fresh mem, fun _ => (0, 0), 0⟩

def mappedBy (w : Host) (os : Os) (p : Packet) : Option Nat :=
  if p.action = 0 then (w.space.mmap (p.npages * p.size).toNat os.mmapAnswer).1 else none

def Tracked.after (x : Tracked) (os : Os) (p : Packet) : Tracked where
  host := (x.host.handle os p).2
  region :=
    match mappedBy x.host os p with
    | some a =>
      Function.update x.region (handleOfCount x.host.server.handleCount)
        (a, (p.npages * p.size).toNat)
    | none => x.region
  allocs := x.allocs + if p.action = 0 then 1 else 0

/-- The server handles one packet after another. -/
def Tracked.Step (x : Tracked) (e : Os × Packet) (y : Tracked) : Prop :=
  e.1.Admissible x.host e.2 ∧ y = x.after e.1 e.2

/-- The states a sequence of packets is handled in, and the final state. -/
def Tracked.follow (x : Tracked) : List (Os × Packet) → List (Tracked × (Os × Packet)) × Tracked
  | [] => ([], x)
  | e :: rest =>
    let t := (x.after e.1 e.2).follow rest
    ((x, e) :: t.1, t.2)

lemma Tracked.follow_run (x : Tracked) (l : List (Os × Packet))
    (h : ∀ t ∈ (x.follow l).1, t.2.1.Admissible t.1.host t.2.2) :
    Run Tracked.Step x (x.follow l).1 (x.follow l).2 := by
  induction l generalizing x with
  | nil => exact Run.nil
  | cons e l ih =>
    have hx := h (x, e) (List.mem_cons_self ..)
    exact Run.cons ⟨hx, rfl⟩ (ih _ (fun y hy => h y (List.mem_cons_of_mem _ hy)))

def Tracked.inRegionOf (x : Tracked) (h : Handle) (y : Nat) : Prop :=
  inRegion (x.region h).1 (x.region h).2 y = true

instance (x : Tracked) (h : Handle) (y : Nat) : Decidable (x.inRegionOf h y) :=
  inferInstanceAs (Decidable (_ = true))

/-! ### The memory a call touches -/

/-- The address a `memcpy` of the server starts at. -/
def memcpyAddr : ServerOp → Option Nat
  | .memcpyFrom a => some a
  | .memcpyTo a _ => some a
  | _ => none

def memcpys (os : Os) (w : Host) (p : Packet) : List Nat :=
  ((Server.handle p).performed (ServerOp.exec os) w).filterMap (fun x => memcpyAddr x.2)

section Memcpys

variable (os : Os) (w : Host) (p : Packet)

lemma memcpys_eq_nil_of_only {x : ServerM Packet} (hx : Server.handle p = x)
    (h : x.OnlyPerforms (fun op => memcpyAddr op = none)) : memcpys os w p = [] := by
  rw [memcpys, hx, List.filterMap_eq_nil_iff]
  exact fun y hy => h.performed _ w y hy

lemma memcpys_alloc (h0 : p.action = 0) : memcpys os w p = [] := by
  refine memcpys_eq_nil_of_only os w p (x := Server.handleAlloc p) (by simp [Server.handle, h0]) ?_
  refine .bind (.bind ⟨rfl, fun _ => trivial⟩ ?_) ?_
  · rintro (_ | a)
    · exact .pure _
    · exact .bind ⟨rfl, fun _ => trivial⟩ fun _ => .bind ⟨rfl, fun _ => trivial⟩ fun _ =>
        .bind ⟨rfl, fun _ => trivial⟩ fun _ => .pure _
  · intro h
    split <;> exact .pure _

lemma memcpys_free (h3 : p.action = 3) : memcpys os w p = [] := by
  refine memcpys_eq_nil_of_only os w p (x := Server.handleFree p) (by simp [Server.handle, h3]) ?_
  refine .bind ⟨rfl, fun _ => trivial⟩ ?_
  rintro (_ | _)
  · exact .pure _
  · refine .bind (.bind ⟨rfl, fun _ => trivial⟩ ?_) ?_
    · rintro (_ | _)
      · exact .pure _
      · refine .bind ⟨rfl, fun _ => trivial⟩ fun n => ?_
        split
        · exact .pure _
        · refine .bind ⟨rfl, fun _ => trivial⟩ fun a => .bind ⟨rfl, fun _ => trivial⟩ ?_
          rintro (_ | _)
          · exact .pure _
          · exact .bind ⟨rfl, fun _ => trivial⟩ fun _ => .bind ⟨rfl, fun _ => trivial⟩
              fun _ => .pure _
    · intro r
      split <;> exact .pure _

lemma memcpys_read_live (h1 : p.action = 1) {a : Nat} {n : UInt32}
    (hl : Live w.server p.hndl a n) :
    memcpys os w p =
      if p.offset < n then [Server.addrWithOffset a p.size p.offset] else [] := by
  have hc : w.server.addrMap.Contains p.hndl := by simp [UnorderedMap.Contains, hl.1]
  have hh : Server.handle p = Server.handleRead p := by simp [Server.handle, h1]
  rw [memcpys, hh]
  simp only [Server.handleRead, Program.performed_bind, performed_containsKey, run_containsKey, hc,
    decide_true, if_true, performed_read_live os w hl, run_read_live os w hl]
  by_cases ho : p.offset < n
  · have hn : ¬n ≤ p.offset := UInt32.not_le.mpr ho
    simp [hn, ho, memcpyAddr]
  · have hn : n ≤ p.offset := UInt32.not_lt.mp ho
    simp [hn, ho, memcpyAddr]

lemma memcpys_write_live (h2 : p.action = 2) {a : Nat} {n : UInt32}
    (hl : Live w.server p.hndl a n) :
    memcpys os w p =
      if p.offset < n then [Server.addrWithOffset a p.size p.offset] else [] := by
  have hc : w.server.addrMap.Contains p.hndl := by simp [UnorderedMap.Contains, hl.1]
  have hh : Server.handle p = Server.handleWrite p := by simp [Server.handle, h2]
  rw [memcpys, hh]
  simp only [Server.handleWrite, Program.performed_bind, performed_containsKey, run_containsKey, hc,
    decide_true, if_true, performed_write_live os w hl, run_write_live os w hl]
  by_cases ho : p.offset < n
  · have hn : ¬n ≤ p.offset := UInt32.not_le.mpr ho
    simp [hn, ho, memcpyAddr]
  · have hn : n ≤ p.offset := UInt32.not_lt.mp ho
    simp [hn, ho, memcpyAddr]

lemma memcpys_dead (hd : w.server.addrMap.find p.hndl = none)
    (h : Server.handle p = Server.handleRead p ∨ Server.handle p = Server.handleWrite p) :
    memcpys os w p = [] := by
  have hc : ¬w.server.addrMap.Contains p.hndl := by simp [UnorderedMap.Contains, hd]
  rw [memcpys]
  rcases h with h | h
  · simp [h, Server.handleRead, performed_containsKey, run_containsKey, hc, memcpyAddr]
  · simp [h, Server.handleWrite, performed_containsKey, run_containsKey, hc, memcpyAddr]

/-- The `memcpy` calls of the server: one for each read or write that passes its checks. -/
theorem mem_memcpys (hs : InStep w.server) (b : Nat) :
    b ∈ memcpys os w p ↔ (p.action = 1 ∨ p.action = 2) ∧ ∃ a n, Live w.server p.hndl a n ∧
      p.offset < n ∧ b = Server.addrWithOffset a p.size p.offset := by
  have hlive : ∀ a n, Live w.server p.hndl a n → (p.action = 1 ∨ p.action = 2) →
      memcpys os w p = if p.offset < n then [Server.addrWithOffset a p.size p.offset] else [] := by
    rintro a n hl (h1 | h2)
    · exact memcpys_read_live os w p h1 hl
    · exact memcpys_write_live os w p h2 hl
  by_cases h12 : p.action = 1 ∨ p.action = 2
  · by_cases hk : w.server.addrMap.find p.hndl = none
    · have hd : memcpys os w p = [] := by
        apply memcpys_dead os w p hk
        rcases h12 with h1 | h2
        · simp [Server.handle, h1]
        · simp [Server.handle, h2]
      simp [hd, Live, hk]
    · obtain ⟨a, n, hl⟩ := hs.live hk
      rw [hlive a n hl h12]
      constructor
      · intro hb
        split at hb
        · next ho => exact ⟨h12, a, n, hl, ho, by simpa using hb⟩
        · simp at hb
      · rintro ⟨-, a', n', hl', ho, rfl⟩
        obtain ⟨rfl, rfl⟩ := hl.unique hl'
        simp [ho]
  · have hd : memcpys os w p = [] := by
      by_cases h0 : p.action = 0
      · exact memcpys_alloc os w p h0
      by_cases h3 : p.action = 3
      · exact memcpys_free os w p h3
      · rw [not_or] at h12
        simp [memcpys, Server.handle, h0, h3, h12]
    simp [hd, h12]

end Memcpys

section Steps

variable {x : Tracked} (os : Os) (p : Packet)

/-- A packet adds a region, removes one, or leaves the maps and the mapped bytes alone. -/
lemma Tracked.after_cases (hs : InStep x.host.server) :
    (∃ a, p.action = 0 ∧ (p.npages * p.size).toNat ≠ 0 ∧ os.mmapAnswer = some a ∧
      x.after os p =
        ⟨⟨Server.alloced x.host.server p.npages a,
          (x.host.space.mmap (p.npages * p.size).toNat (some a)).2⟩,
        Function.update x.region (handleOfCount x.host.server.handleCount)
          (a, (p.npages * p.size).toNat), x.allocs + 1⟩) ∨
    (∃ a n, p.action = 3 ∧ Live x.host.server p.hndl a n ∧
      (x.host.space.munmap a (n * p.size).toNat os.munmapAnswer).1 = true ∧
      x.after os p =
        ⟨⟨Server.freed x.host.server p.hndl,
          (x.host.space.munmap a (n * p.size).toNat os.munmapAnswer).2⟩, x.region, x.allocs⟩) ∨
    ((x.after os p).host.server = x.host.server ∧
      (x.after os p).host.space.mapped = x.host.space.mapped ∧
      (x.after os p).region = x.region ∧ x.allocs ≤ (x.after os p).allocs ∧
      ¬(p.action = 3 ∧ ∃ a n, Live x.host.server p.hndl a n ∧
        (x.host.space.munmap a (n * p.size).toNat os.munmapAnswer).1 = true)) := by
  have hnone : p.action ≠ 0 → mappedBy x.host os p = none := fun h => by simp [mappedBy, h]
  have ho := handle_outcome os x.host p hs
  unfold Tracked.after
  generalize (x.host.handle os p).1 = r at ho
  generalize (x.host.handle os p).2 = w' at ho
  cases ho with
  | alloced h0 a hlen hm =>
    have hmap : mappedBy x.host os p = some a := by
      rw [mappedBy, if_pos h0, hm, AddressSpace.mmap_some _ hlen]
    left
    exact ⟨a, h0, hlen, hm, by simp [hmap, h0]⟩
  | freed h3 a n hl hm =>
    have hmap := hnone (by rw [h3]; decide)
    right; left
    exact ⟨a, n, h3, hl, hm, by simp [hmap, h3]⟩
  | allocFailed h0 hm =>
    have hmap : mappedBy x.host os p = none := by rw [mappedBy, if_pos h0, hm]
    right; right
    simp [hmap, h0]
  | freeFailed h3 a n hl hm =>
    have hmap := hnone (by rw [h3]; decide)
    right; right
    refine ⟨rfl, rfl, by simp [hmap], Nat.le_add_right _ _, ?_⟩
    rintro ⟨-, a', n', hl', hm'⟩
    obtain ⟨rfl, rfl⟩ := hl.unique hl'
    exact absurd (hm.symm.trans hm') (by simp)
  | freeInvalid h3 hd =>
    have hmap := hnone (by rw [h3]; decide)
    right; right
    refine ⟨rfl, rfl, by simp [hmap], Nat.le_add_right _ _, ?_⟩
    rintro ⟨-, a', n', hl', -⟩
    simp [hl'.1] at hd
  | written h2 a n hl ho =>
    have hmap := hnone (by rw [h2]; decide)
    right; right
    exact ⟨rfl, rfl, by simp [hmap], Nat.le_add_right _ _, by simp [h2]⟩
  | _ => right; right; simp_all

end Steps

/-! ### Accesses stay inside the region of their handle -/

/-- Every live handle is recorded with the start of its region, which lies in the 64-bit
address space. -/
structure Placed (x : Tracked) : Prop where
  inStep : InStep x.host.server
  region : ∀ h a n, Live x.host.server h a n → (x.region h).1 = a ∧ a % 4096 = 0 ∧
    (x.region h).2 ≠ 0 ∧ a + pageRound (x.region h).2 ≤ 2 ^ 64

lemma fresh_placed (mem : Nat → UInt8) : Placed (Tracked.fresh mem) where
  inStep := fresh_inStep mem
  region := by simp [Live, Tracked.fresh, Host.fresh]

lemma after_inStep {x : Tracked} {os : Os} {p : Packet} (ha : os.Admissible x.host p)
    (hs : InStep x.host.server) : InStep (x.after os p).host.server :=
  handle_inStep ha hs

lemma Placed.step {x y : Tracked} {e : Os × Packet} (hx : Placed x) (h : x.Step e y) :
    Placed y := by
  obtain ⟨os, p⟩ := e
  obtain ⟨ha, rfl⟩ := h
  dsimp only at ha ⊢
  refine ⟨after_inStep ha hx.inStep, ?_⟩
  intro h a n hl
  rcases Tracked.after_cases os p hx.inStep with
    ⟨b, h0, hlen, hm, he⟩ | ⟨b, m, h3, hlv, hm, he⟩ | ⟨hsv, -, hr, -, -⟩
  · rw [he] at hl ⊢
    rcases live_alloced.mp hl with ⟨rfl, rfl, rfl⟩ | ⟨hne, hl⟩
    · obtain ⟨-, hal, hb, -⟩ := ha h0 b hm
      simpa using ⟨hal, by simpa using hlen, by simpa using hb⟩
    · simpa [Function.update_of_ne hne] using hx.region h a n hl
  · rw [he] at hl ⊢
    exact hx.region h a n (live_freed.mp hl).2
  · rw [hsv] at hl
    rw [hr]
    exact hx.region h a n hl

/-- Every byte a call copies from or to lies in the region of its handle. -/
def Confined (x : Tracked) (e : Os × Packet) : Prop :=
  ∀ b ∈ memcpys e.1 x.host e.2, ∀ y, b ≤ y → y < b + 4096 → x.inRegionOf e.2.hndl y

/-- A read or write that passes its checks addresses a page within the mapped length. -/
def Fits (x : Tracked) (e : Os × Packet) : Prop :=
  (e.2.action = 1 ∨ e.2.action = 2) → ∀ a n, Live x.host.server e.2.hndl a n → e.2.offset < n →
    (e.2.size * e.2.offset).toNat + 4096 ≤ pageRound (x.region e.2.hndl).2

/-- The range copied from or to lies in the region exactly when the product fits. -/
lemma range_in_region_iff {a len : Nat} (size offset : UInt32) (hb : a + pageRound len ≤ 2 ^ 64) :
    (∀ y, Server.addrWithOffset a size offset ≤ y →
      y < Server.addrWithOffset a size offset + 4096 → inRegion a len y = true) ↔
      (size * offset).toNat + 4096 ≤ pageRound len := by
  have hp : (size * offset).toNat < 2 ^ 32 := UInt32.toNat_lt _
  unfold Server.addrWithOffset
  constructor
  · intro h
    have h1 := (inRegion_iff _ _ _).mp (h _ (Nat.le_refl _) (by omega))
    have h2 := (inRegion_iff _ _ _).mp
      (h ((a + (size * offset).toNat) % 2 ^ 64 + 4095) (by omega) (by omega))
    -- a sum that wrapped around would lie below the start of the region
    have hlt : a + (size * offset).toNat < 2 ^ 64 := by omega
    rw [Nat.mod_eq_of_lt hlt] at h2
    omega
  · intro h y h1 h2
    rw [Nat.mod_eq_of_lt (by omega)] at h1 h2
    exact (inRegion_iff _ _ _).mpr (by omega)

lemma confined_iff_fits {x : Tracked} (hx : Placed x) (e : Os × Packet) :
    Confined x e ↔ Fits x e := by
  unfold Confined Fits
  constructor
  · intro h h12 a n hl ho
    obtain ⟨ha, -, -, hb⟩ := hx.region _ a n hl
    refine (range_in_region_iff e.2.size e.2.offset hb).mp ?_
    have hc := h _ ((mem_memcpys e.1 x.host e.2 hx.inStep _).mpr ⟨h12, a, n, hl, ho, rfl⟩)
    simpa only [Tracked.inRegionOf, ha] using hc
  · intro h b hbm
    obtain ⟨h12, a, n, hl, ho, rfl⟩ := (mem_memcpys e.1 x.host e.2 hx.inStep b).mp hbm
    obtain ⟨ha, -, -, hb⟩ := hx.region _ a n hl
    have hr := (range_in_region_iff e.2.size e.2.offset hb).mpr (h h12 a n hl ho)
    simpa only [Tracked.inRegionOf, ha] using hr

/-- Every live region is mapped and apart from the others. -/
structure Separate (x : Tracked) : Prop where
  placed : Placed x
  mapped : ∀ h a n, Live x.host.server h a n → ∀ y, x.inRegionOf h y →
    x.host.space.mapped y = true
  apart : ∀ h h' a a' n n', Live x.host.server h a n → Live x.host.server h' a' n' → h ≠ h' →
    ∀ y, x.inRegionOf h y → ¬x.inRegionOf h' y

/-- A free that unmaps something unmaps no byte of another live region. -/
def FreesApart (x : Tracked) (e : Os × Packet) : Prop :=
  e.2.action = 3 → e.1.munmapAnswer = true → ∀ a n, Live x.host.server e.2.hndl a n →
    ∀ h' a' n', h' ≠ e.2.hndl → Live x.host.server h' a' n' → ∀ y,
      inRegion a (n * e.2.size).toNat y = true → ¬x.inRegionOf h' y

lemma fresh_separate (mem : Nat → UInt8) : Separate (Tracked.fresh mem) where
  placed := fresh_placed mem
  mapped := by simp [Live, Tracked.fresh, Host.fresh]
  apart := by simp [Live, Tracked.fresh, Host.fresh]

lemma mmap_apart {v : AddressSpace} {len b y : Nat} (h : v.MmapAnswer len (some b))
    (hy : v.mapped y = true) : ¬inRegion b len y = true := by
  intro hin
  have := (h b rfl).2.2.2 y hin
  simp [hy] at this

lemma inRegionOf_new {w : Host} {region : Handle → Nat × Nat} {h : Handle} {b len k y : Nat} :
    (⟨w, Function.update region h (b, len), k⟩ : Tracked).inRegionOf h y ↔
      inRegion b len y = true := by
  simp only [Tracked.inRegionOf, Function.update_self]

lemma inRegionOf_old {x : Tracked} {w : Host} {h h' : Handle} (hne : h' ≠ h) {b len k y : Nat} :
    (⟨w, Function.update x.region h (b, len), k⟩ : Tracked).inRegionOf h' y ↔
      x.inRegionOf h' y := by
  simp only [Tracked.inRegionOf, Function.update_of_ne hne]

lemma Separate.step {x y : Tracked} {e : Os × Packet} (hx : Separate x) (hf : FreesApart x e)
    (h : x.Step e y) : Separate y := by
  have hpl := hx.placed.step h
  obtain ⟨os, p⟩ := e
  obtain ⟨ha, rfl⟩ := h
  dsimp only [FreesApart] at ha hf hpl ⊢
  rcases Tracked.after_cases os p hx.placed.inStep with
    ⟨b, h0, hlen, hm, he⟩ | ⟨b, m, h3, hlv, hm, he⟩ | ⟨hsv, hmp, hr, -, -⟩
  · have hans := ha h0
    rw [hm] at hans
    rw [he] at hpl ⊢
    refine ⟨hpl, ?_, ?_⟩
    · intro h a n hl y hy
      rw [AddressSpace.mmap_snd _ hlen]
      rcases live_alloced.mp hl with ⟨rfl, rfl, rfl⟩ | ⟨hne, hl⟩
      · simp only [inRegionOf_new.mp hy, Bool.true_or]
      · simp only [hx.mapped h a n hl y ((inRegionOf_old hne).mp hy), Bool.or_true]
    · intro h h' a a' n n' hl hl' hhh y hy hy'
      rcases live_alloced.mp hl with ⟨rfl, rfl, rfl⟩ | ⟨hne, hl⟩
      · rcases live_alloced.mp hl' with ⟨rfl, rfl, rfl⟩ | ⟨hne', hl'⟩
        · exact hhh rfl
        · have hmap := hx.mapped h' a' n' hl' y ((inRegionOf_old hne').mp hy')
          exact mmap_apart hans hmap (inRegionOf_new.mp hy)
      · rcases live_alloced.mp hl' with ⟨rfl, rfl, rfl⟩ | ⟨hne', hl'⟩
        · have hmap := hx.mapped h a n hl y ((inRegionOf_old hne).mp hy)
          exact mmap_apart hans hmap (inRegionOf_new.mp hy')
        · exact hx.apart h h' a a' n n' hl hl' hhh y ((inRegionOf_old hne).mp hy)
            ((inRegionOf_old hne').mp hy')
  · obtain ⟨-, hans, hmap⟩ := AddressSpace.munmap_true hm
    rw [he] at hpl ⊢
    refine ⟨hpl, ?_, ?_⟩
    · intro h a n hl y hy
      obtain ⟨hne, hl⟩ := live_freed.mp hl
      have hout : inRegion b (m * p.size).toNat y = false := by
        by_contra hc
        exact hf h3 hans b m hlv h a n hne hl y (by simpa using hc) hy
      simp only [hmap, hout, hx.mapped h a n hl y hy, Bool.not_false, Bool.and_true]
    · intro h h' a a' n n' hl hl'
      exact hx.apart h h' a a' n n' (live_freed.mp hl).2 (live_freed.mp hl').2
  · refine ⟨hpl, ?_, ?_⟩
    · intro h a n hl y hy
      rw [hsv] at hl
      rw [hmp]
      exact hx.mapped h a n hl y (by simpa only [Tracked.inRegionOf, hr] using hy)
    · intro h h' a a' n n' hl hl' hhh y hy hy'
      rw [hsv] at hl hl'
      simp only [Tracked.inRegionOf, hr] at hy hy'
      exact hx.apart h h' a a' n n' hl hl' hhh y hy hy'

/-- Every byte a call copies from or to is mapped and in no other live region. -/
def Isolated (x : Tracked) (e : Os × Packet) : Prop :=
  ∀ b ∈ memcpys e.1 x.host e.2, ∀ y, b ≤ y → y < b + 4096 → x.host.space.mapped y = true ∧
    ∀ h' a' n', h' ≠ e.2.hndl → Live x.host.server h' a' n' → ¬x.inRegionOf h' y

lemma Separate.isolated {x : Tracked} {e : Os × Packet} (hx : Separate x) (hf : Fits x e) :
    Isolated x e := by
  intro b hb y h1 h2
  have hin := (confined_iff_fits hx.placed e).mpr hf b hb y h1 h2
  obtain ⟨-, a, n, hl, -, -⟩ := (mem_memcpys e.1 x.host e.2 hx.placed.inStep b).mp hb
  refine ⟨hx.mapped _ a n hl y hin, ?_⟩
  intro h' a' n' hne hl'
  exact hx.apart _ h' a a' n n' hl hl' (fun h => hne h.symm) y hin

/-- In every run the accesses of the server stay inside the region of their handle exactly
when the product of the `size` and `offset` fields of every read and write that passes its
checks, taken modulo `2 ^ 32`, leaves room for a page in the mapped length. If moreover no
free reaches into another live region, every byte accessed is mapped and in no other live
region. -/
theorem memcpys_confined_iff (mem : Nat → UInt8) (tr : List (Tracked × (Os × Packet)))
    (x : Tracked) (hrun : Run Tracked.Step (Tracked.fresh mem) tr x) :
    ((∀ t ∈ tr, Confined t.1 t.2) ↔ ∀ t ∈ tr, Fits t.1 t.2) ∧
      ((∀ t ∈ tr, Fits t.1 t.2 ∧ FreesApart t.1 t.2) → ∀ t ∈ tr, Isolated t.1 t.2) := by
  constructor
  · exact hrun.forall_iff (I := Placed) (fun _ _ _ hx _ h => hx.step h)
      (fun _ e _ hx _ => confined_iff_fits hx e) (fresh_placed mem)
  · intro h t ht
    have hsep : Separate t.1 := hrun.invariant_before (I := Separate) (C := FreesApart)
      (fun _ _ _ hx hc hs => hx.step hc hs) (fresh_separate mem) (fun t ht => (h t ht).2) t ht
    exact hsep.isolated (h t ht).1

/-- Two pages allocated at address 4096, then page 1 requested with stride `size`. -/
def allocThenRead (size : UInt32) : List (Os × Packet) :=
  let p : Packet := ⟨0, 2, 4096, 0, 0, zeroPage, 0⟩
  [(⟨some 4096, true⟩, p), (⟨none, true⟩, { p with action := 1, offset := 1, size := size })]

lemma allocThenRead_run (size : UInt32) : Run Tracked.Step (Tracked.fresh fun _ => 0)
    ((Tracked.fresh fun _ => 0).follow (allocThenRead size)).1
    ((Tracked.fresh fun _ => 0).follow (allocThenRead size)).2 := by
  apply Tracked.follow_run
  simp only [allocThenRead, Tracked.follow, List.forall_mem_cons, Os.Admissible]
  exact ⟨fun _ => fresh_mmapAnswer _ (UInt32.toNat_lt _), by simp⟩

/-- With the page size as stride the access stays inside the region. -/
theorem alloc_then_read_confined :
    (((Tracked.fresh fun _ => 0).follow (allocThenRead 4096)).1.flatMap fun t =>
      memcpys t.2.1 t.1.host t.2.2) = [8192] ∧
    ∀ t ∈ ((Tracked.fresh fun _ => 0).follow (allocThenRead 4096)).1, Confined t.1 t.2 := by
  refine ⟨by decide, ?_⟩
  refine (memcpys_confined_iff (fun _ => 0) _ _ (allocThenRead_run 4096)).1.mpr ?_
  simp only [allocThenRead, Tracked.follow, List.forall_mem_cons]
  refine ⟨by simp [Fits], ?_, by simp⟩
  intro _ a n hl ho
  decide

/-- With a stride of `2 ^ 20` the read of page 1 leaves the two pages of its handle. -/
theorem alloc_then_read_escapes :
    ∃ tr x, Run Tracked.Step (Tracked.fresh fun _ => 0) tr x ∧
      (∀ t ∈ tr, t.2.2.action = 0 → t.2.2.npages.toNat * t.2.2.size.toNat < 2 ^ 32) ∧
      ¬∀ t ∈ tr, Confined t.1 t.2 := by
  refine ⟨_, _, allocThenRead_run 1048576, ?_, ?_⟩
  · simp [allocThenRead, Tracked.follow]
  · simp only [allocThenRead, Tracked.follow, List.forall_mem_cons]
    rintro ⟨-, hc, -⟩
    have hb := hc 1052672 (by decide) 1052672 (Nat.le_refl _) (by decide)
    exact absurd hb (by decide)

/-! ### The mapped bytes are those of the live handles -/

/-- The mapped bytes are the disjoint union of the regions of the live handles. -/
def MappedExactly (x : Tracked) : Prop :=
  (∀ y, x.host.space.mapped y = true ↔ ∃ h a n, Live x.host.server h a n ∧ x.inRegionOf h y) ∧
    ∀ h h' a a' n n', Live x.host.server h a n → Live x.host.server h' a' n' → h ≠ h' →
      ∀ y, x.inRegionOf h y → ¬x.inRegionOf h' y

/-- A free that unmaps something covers the region of its handle, and no other live region
starts in what it unmaps beyond it. -/
def FreesRegion (x : Tracked) (e : Os × Packet) : Prop :=
  e.2.action = 3 → e.1.munmapAnswer = true → ∀ a n, Live x.host.server e.2.hndl a n →
    (n * e.2.size).toNat ≠ 0 →
    pageRound (x.region e.2.hndl).2 ≤ pageRound (n * e.2.size).toNat ∧
      ∀ h' a' n', h' ≠ e.2.hndl → Live x.host.server h' a' n' →
        ¬(a + pageRound (x.region e.2.hndl).2 ≤ a' ∧ a' < a + pageRound (n * e.2.size).toNat)

/-- Handles in use are below the counter, which has not wrapped around. -/
structure Counted (x : Tracked) : Prop where
  placed : Placed x
  below : ∀ h a, x.host.server.addrMap.find h = some a →
    ∃ k, k < x.host.server.handleCount.toNat ∧ h = Int.ofNat k
  count : x.host.server.handleCount.toNat ≤ x.allocs

/-- A step of a run in which fewer than `2 ^ 32` allocations are requested. -/
def Tracked.BoundedStep (x : Tracked) (e : Os × Packet) (y : Tracked) : Prop :=
  x.Step e y ∧ y.allocs < 2 ^ 32

lemma pageRound_pos {len : Nat} (h : len ≠ 0) : 0 < pageRound len := by
  unfold pageRound
  omega

lemma fresh_counted (mem : Nat → UInt8) : Counted (Tracked.fresh mem) where
  placed := fresh_placed mem
  below := by simp [Tracked.fresh, Host.fresh]
  count := by simp [Tracked.fresh, Host.fresh]

lemma fresh_mappedExactly (mem : Nat → UInt8) : MappedExactly (Tracked.fresh mem) := by
  simp [MappedExactly, Live, Tracked.fresh, Host.fresh]

lemma Counted.step {x y : Tracked} {e : Os × Packet} (hx : Counted x) (h : x.BoundedStep e y) :
    Counted y := by
  obtain ⟨os, p⟩ := e
  obtain ⟨hst, hbd⟩ := h
  have hpl := hx.placed.step hst
  obtain ⟨ha, rfl⟩ := hst
  dsimp only at ha hpl hbd ⊢
  rcases Tracked.after_cases os p hx.placed.inStep with
    ⟨b, h0, hlen, hm, he⟩ | ⟨b, m, h3, hlv, hm, he⟩ | ⟨hsv, -, -, hal, -⟩
  · rw [he] at hpl hbd ⊢
    dsimp only at hbd
    have hcount : x.host.server.handleCount.toNat + 1 < 2 ^ 32 := by
      have hc := hx.count
      omega
    refine ⟨hpl, HandlesBelow.alloced hx.below hcount p.npages b, ?_⟩
    simp only [Server.alloced, toNat_handleCount_add_one hcount]
    exact Nat.succ_le_succ hx.count
  · rw [he] at hpl ⊢
    exact ⟨hpl, HandlesBelow.freed hx.below p.hndl, hx.count⟩
  · refine ⟨hpl, ?_, ?_⟩
    · rw [hsv]
      exact hx.below
    · rw [hsv]
      exact Nat.le_trans hx.count hal

section Exact

variable {x : Tracked} {os : Os} {p : Packet}

lemma inRegionOf_live (hx : Placed x) {h : Handle} {a : Nat} {n : UInt32}
    (hl : Live x.host.server h a n) (y : Nat) :
    x.inRegionOf h y ↔ a ≤ y ∧ y < a + pageRound (x.region h).2 := by
  rw [Tracked.inRegionOf, inRegion_iff, (hx.region h a n hl).1]

lemma MappedExactly.alloced (hx : Counted x) (hm : MappedExactly x) {len b : Nat} (n : UInt32)
    (hlen : len ≠ 0) (hb : x.host.space.MmapAnswer len (some b)) (k : Nat) :
    MappedExactly ⟨⟨Server.alloced x.host.server n b, (x.host.space.mmap len (some b)).2⟩,
      Function.update x.region (handleOfCount x.host.server.handleCount) (b, len), k⟩ := by
  have hne : ∀ h a n, Live x.host.server h a n → h ≠ handleOfCount x.host.server.handleCount := by
    rintro h a n hl rfl
    exact absurd (hl.1.symm.trans (HandlesBelow.fresh_handle hx.below)) (by simp)
  have hapart : ∀ h a n, Live x.host.server h a n → ∀ y, x.inRegionOf h y →
      ¬inRegion b len y = true :=
    fun h a n hl y hy => mmap_apart hb ((hm.1 y).mpr ⟨h, a, n, hl, hy⟩)
  constructor
  · intro y
    rw [AddressSpace.mmap_snd _ hlen]
    simp only [Bool.or_eq_true, hm.1 y]
    constructor
    · rintro (hy | ⟨h, a, n', hl, hy⟩)
      · exact ⟨_, b, n, live_alloced.mpr (.inl ⟨rfl, rfl, rfl⟩), inRegionOf_new.mpr hy⟩
      · have hh := hne h a n' hl
        exact ⟨h, a, n', live_alloced.mpr (.inr ⟨hh, hl⟩), (inRegionOf_old hh).mpr hy⟩
    · rintro ⟨h, a, n', hl, hy⟩
      rcases live_alloced.mp hl with ⟨rfl, rfl, rfl⟩ | ⟨hh, hl⟩
      · exact .inl (inRegionOf_new.mp hy)
      · exact .inr ⟨h, a, n', hl, (inRegionOf_old hh).mp hy⟩
  · intro h h' a a' n₁ n₂ hl hl' hhh y hy hy'
    rcases live_alloced.mp hl with ⟨rfl, rfl, rfl⟩ | ⟨hh, hl⟩
    · rcases live_alloced.mp hl' with ⟨rfl, rfl, rfl⟩ | ⟨hh', hl'⟩
      · exact hhh rfl
      · exact hapart h' a' n₂ hl' y ((inRegionOf_old hh').mp hy') (inRegionOf_new.mp hy)
    · rcases live_alloced.mp hl' with ⟨rfl, rfl, rfl⟩ | ⟨hh', hl'⟩
      · exact hapart h a n₁ hl y ((inRegionOf_old hh).mp hy) (inRegionOf_new.mp hy')
      · exact hm.2 h h' a a' n₁ n₂ hl hl' hhh y ((inRegionOf_old hh).mp hy)
          ((inRegionOf_old hh').mp hy')

/-- Unmapping `M` bytes from the start of a live region keeps the mapped bytes exact if and
only if it covers the region and reaches no other live region. -/
lemma freed_mappedExactly_iff (hx : Placed x) (hm : MappedExactly x) {h : Handle} {b len : Nat}
    {m : UInt32} (hl : Live x.host.server h b m) {v : AddressSpace} (k : Nat)
    (hv : v.mapped = fun y => !inRegion b len y && x.host.space.mapped y) :
    MappedExactly ⟨⟨Server.freed x.host.server h, v⟩, x.region, k⟩ ↔
      pageRound (x.region h).2 ≤ pageRound len ∧ ∀ h' a' n', h' ≠ h →
        Live x.host.server h' a' n' →
          ¬(b + pageRound (x.region h).2 ≤ a' ∧ a' < b + pageRound len) := by
  have hin := inRegionOf_live hx hl
  have hpos := pageRound_pos (hx.region h b m hl).2.2.1
  have hmap : ∀ y, v.mapped y = true ↔
      ¬(b ≤ y ∧ y < b + pageRound len) ∧ x.host.space.mapped y = true := by
    intro y
    rw [hv, ← inRegion_iff]
    simp
  constructor
  · rintro ⟨hex, -⟩
    constructor
    · -- otherwise the byte just beyond the unmapped range is leaked
      by_contra hlt
      have hy : x.inRegionOf h (b + pageRound len) := (hin _).mpr (by omega)
      have hmp := (hmap (b + pageRound len)).mpr ⟨by omega, (hm.1 _).mpr ⟨h, b, m, hl, hy⟩⟩
      obtain ⟨g, a, n, hlg, hyg⟩ := (hex _).mp hmp
      obtain ⟨hne, hlg⟩ := live_freed.mp hlg
      exact hm.2 g h a b n m hlg hl hne _ hyg hy
    · -- otherwise the first byte of the other region is unmapped
      intro h' a' n' hne hl' hr
      have hpos' := pageRound_pos (hx.region h' a' n' hl').2.2.1
      have hy : x.inRegionOf h' a' := (inRegionOf_live hx hl' _).mpr (by omega)
      have hmp := (hex a').mpr ⟨h', a', n', live_freed.mpr ⟨hne, hl'⟩, hy⟩
      have := ((hmap a').mp hmp).1
      omega
  · rintro ⟨hcov, hfar⟩
    constructor
    · intro y
      rw [hmap, hm.1]
      constructor
      · rintro ⟨hout, g, a, n, hlg, hyg⟩
        have hne : g ≠ h := by
          rintro rfl
          have := (hin y).mp hyg
          omega
        exact ⟨g, a, n, live_freed.mpr ⟨hne, hlg⟩, hyg⟩
      · rintro ⟨g, a, n, hlg, hyg⟩
        obtain ⟨hne, hlg⟩ := live_freed.mp hlg
        have hfar := hfar g a n hne hlg
        refine ⟨?_, g, a, n, hlg, hyg⟩
        intro hr
        have hyg' := (inRegionOf_live hx hlg y).mp hyg
        -- a region that starts below the end of the freed one and reaches `y` shares a byte
        -- with it
        by_cases hay : a < b + pageRound (x.region h).2
        · by_cases hyb : y < b + pageRound (x.region h).2
          · exact hm.2 g h a b n m hlg hl hne y hyg ((hin y).mpr (by omega))
          · have h1 := (inRegionOf_live hx hlg (b + pageRound (x.region h).2 - 1)).mpr (by omega)
            exact hm.2 g h a b n m hlg hl hne _ h1 ((hin _).mpr (by omega))
        · omega
    · intro g g' a a' n n' hlg hlg'
      exact hm.2 g g' a a' n n' (live_freed.mp hlg).2 (live_freed.mp hlg').2

end Exact

/-- After a packet the mapped bytes are exact if and only if a free among them freed its
region. -/
lemma after_mappedExactly_iff {x y : Tracked} {e : Os × Packet} (hx : Counted x)
    (hm : MappedExactly x) (h : x.BoundedStep e y) :
    MappedExactly (x.after e.1 e.2) ↔ FreesRegion x e := by
  obtain ⟨os, p⟩ := e
  obtain ⟨⟨ha, -⟩, -⟩ := h
  dsimp only [FreesRegion] at ha ⊢
  rcases Tracked.after_cases os p hx.placed.inStep with
    ⟨b, h0, hlen, hans, he⟩ | ⟨b, m, h3, hlv, hun, he⟩ | ⟨hsv, hmp, hr, -, hno⟩
  · have hb := ha h0
    rw [hans] at hb
    rw [he]
    simp only [h0, hm.alloced hx p.npages hlen hb (x.allocs + 1), true_iff]
    intro h
    simp at h
  · obtain ⟨hne, hans, hmap⟩ := AddressSpace.munmap_true hun
    rw [he, freed_mappedExactly_iff hx.placed hm hlv x.allocs hmap]
    constructor
    · intro hc _ _ a n hl _
      obtain ⟨rfl, rfl⟩ := hlv.unique hl
      exact hc
    · intro hc
      exact hc h3 hans b m hlv hne
  · have hex : MappedExactly (x.after os p) := by
      unfold MappedExactly Tracked.inRegionOf
      rw [hsv, hmp, hr]
      exact hm
    simp only [hex, true_iff]
    intro h3 hans a n hl hne
    refine absurd ⟨h3, a, n, hl, ?_⟩ hno
    have hal := (hx.placed.region _ a n hl).2.1
    have hcond : ¬((n * p.size).toNat = 0 ∨ a % 4096 ≠ 0 ∨ os.munmapAnswer = false) := by
      rintro (h | h | h)
      · exact hne h
      · exact h hal
      · simp [hans] at h
    rw [AddressSpace.munmap, if_neg hcond]

/-- In every run with fewer than `2 ^ 32` allocation requests, the mapped bytes are after
every packet the disjoint union of the regions of the live handles, exactly when every free
that unmaps something covers the region of its handle and reaches no other live region. -/
theorem mapped_exactly_iff (mem : Nat → UInt8) (tr : List (Tracked × (Os × Packet)))
    (x : Tracked) (hrun : Run Tracked.BoundedStep (Tracked.fresh mem) tr x) :
    (∀ t ∈ tr, MappedExactly (t.1.after t.2.1 t.2.2)) ↔ ∀ t ∈ tr, FreesRegion t.1 t.2 := by
  refine hrun.forall_iff (I := fun x => Counted x ∧ MappedExactly x)
    (P := fun x e => MappedExactly (x.after e.1 e.2)) ?_ ?_ ⟨fresh_counted mem, fresh_mappedExactly mem⟩
  · intro x e y hx hm hs
    refine ⟨hx.1.step hs, ?_⟩
    rw [hs.1.2]
    exact hm
  · intro x e y hx hs
    exact after_mappedExactly_iff hx.1 hx.2 hs

/-- Two pages allocated at address 4096, then freed with page size `size`. -/
def allocThenFree (size : UInt32) : List (Os × Packet) :=
  let p : Packet := ⟨0, 2, 4096, 0, 0, zeroPage, 0⟩
  [(⟨some 4096, true⟩, p), (⟨none, true⟩, { p with action := 3, size := size })]

lemma allocThenFree_run (size : UInt32) : Run Tracked.BoundedStep (Tracked.fresh fun _ => 0)
    ((Tracked.fresh fun _ => 0).follow (allocThenFree size)).1
    ((Tracked.fresh fun _ => 0).follow (allocThenFree size)).2 := by
  refine Run.cons ⟨⟨fun _ => fresh_mmapAnswer _ (UInt32.toNat_lt _), rfl⟩, by decide⟩
    (Run.cons ⟨⟨fun h => absurd (show (3 : UInt32) = 0 from h) (by decide), rfl⟩,
      show 1 < 2 ^ 32 by decide⟩ Run.nil)

/-- Freed with the size it was allocated with, the region is unmapped exactly. -/
theorem alloc_then_free_exact :
    ((Tracked.fresh fun _ => 0).follow (allocThenFree 4096)).2.host.space.mapped 8192 = false ∧
    ∀ t ∈ ((Tracked.fresh fun _ => 0).follow (allocThenFree 4096)).1,
      MappedExactly (t.1.after t.2.1 t.2.2) := by
  refine ⟨by decide, ?_⟩
  refine (mapped_exactly_iff (fun _ => 0) _ _ (allocThenFree_run 4096)).mpr ?_
  simp only [allocThenFree, Tracked.follow, List.forall_mem_cons]
  refine ⟨by simp [FreesRegion], ?_, by simp⟩
  intro _ _ a n hl _
  obtain rfl : n = 2 := (Option.some.inj hl.2).symm
  refine ⟨by decide, ?_⟩
  intro h' a' n' hne hl'
  have hnone : ((Tracked.fresh fun _ => 0).after ⟨some 4096, true⟩
      ⟨0, 2, 4096, 0, 0, zeroPage, 0⟩).host.server.addrMap.find h' = none := if_neg hne
  exact absurd (hl'.1.symm.trans hnone) (by simp)

/-- Freed with half the page size, the second page stays mapped without a handle. -/
theorem alloc_then_free_leaks :
    ∃ tr x, Run Tracked.BoundedStep (Tracked.fresh fun _ => 0) tr x ∧
      (∀ t ∈ tr, t.2.2.action = 0 → t.2.2.npages.toNat * t.2.2.size.toNat < 2 ^ 32) ∧
      ¬∀ t ∈ tr, MappedExactly (t.1.after t.2.1 t.2.2) := by
  refine ⟨_, _, allocThenFree_run 2048, ?_, ?_⟩
  · simp [allocThenFree, Tracked.follow]
  · simp only [allocThenFree, Tracked.follow, List.forall_mem_cons]
    rintro ⟨-, hc, -⟩
    obtain ⟨h, a, n, hl, -⟩ := (hc.1 8192).mp (by decide)
    have hfind : (if h = 0 then none else if h = handleOfCount 0 then some 4096 else none) =
        some a := hl.1
    have h0 : handleOfCount 0 = 0 := rfl
    split_ifs at hfind with h1 h2
    exact h1 (h2.trans h0)

end RemoteMemoryPool.Proofs
