import RemoteMemoryPool.Model.Server

/-!
# What one call of `rmp::Server::handle` does

`Server.InStep` is the invariant that both maps have the same keys, no recorded address is
null and no recorded page count is zero. `Outcome` lists the branches a call can take from
a state in step, each with its guard, its reply and the state it leaves, and
`handle_outcome` says that there are no others. Every later invariant is proved from it.
-/

namespace RemoteMemoryPool.Proofs

open Interaction Transition

/-- Both maps of the server have the same keys and no default entries. -/
structure InStep (s : Server) : Prop where
  keys : ∀ h, s.addrMap.find h = none ↔ s.hndlNPages.find h = none
  addr_ne : ∀ h a, s.addrMap.find h = some a → a ≠ 0
  npages_ne : ∀ h n, s.hndlNPages.find h = some n → n ≠ 0

def Server.alloced (s : Server) (npages : UInt32) (a : Nat) : Server where
  handleCount := s.handleCount + 1
  addrMap := s.addrMap.set (handleOfCount s.handleCount) a
  hndlNPages := s.hndlNPages.set (handleOfCount s.handleCount) npages

def Server.freed (s : Server) (h : Handle) : Server where
  handleCount := s.handleCount
  addrMap := s.addrMap.erase h
  hndlNPages := s.hndlNPages.erase h

/-- The handle of a packet is recorded with address `a` and `n` pages. -/
def Live (s : Server) (h : Handle) (a : Nat) (n : UInt32) : Prop :=
  s.addrMap.find h = some a ∧ s.hndlNPages.find h = some n

/-- The branches of one undisturbed call on packet `p` from state `w`. -/
inductive Outcome (os : Os) (w : Host) (p : Packet) : Packet → Host → Prop
  | allocFailed (ha : p.action = 0)
      (hm : (w.space.mmap (p.npages * p.size).toNat os.mmapAnswer).1 = none) :
      Outcome os w p { p with error := allocFailed } w
  | alloced (ha : p.action = 0) (a : Nat) (hlen : (p.npages * p.size).toNat ≠ 0)
      (hm : os.mmapAnswer = some a) :
      Outcome os w p { p with hndl := handleOfCount w.server.handleCount }
        ⟨Server.alloced w.server p.npages a,
          (w.space.mmap (p.npages * p.size).toNat (some a)).2⟩
  | readInvalid (ha : p.action = 1) (hd : w.server.addrMap.find p.hndl = none) :
      Outcome os w p { p with error := invalidHandle } w
  | readFailed (ha : p.action = 1) (a : Nat) (n : UInt32) (hl : Live w.server p.hndl a n)
      (ho : n ≤ p.offset) : Outcome os w p { p with error := readFailed } w
  | read (ha : p.action = 1) (a : Nat) (n : UInt32) (hl : Live w.server p.hndl a n)
      (ho : p.offset < n) :
      Outcome os w p
        { p with data := w.space.memcpyFrom (Server.addrWithOffset a p.size p.offset) } w
  | writeInvalid (ha : p.action = 2) (hd : w.server.addrMap.find p.hndl = none) :
      Outcome os w p { p with error := invalidHandle } w
  | writeFailed (ha : p.action = 2) (a : Nat) (n : UInt32) (hl : Live w.server p.hndl a n)
      (ho : n ≤ p.offset) : Outcome os w p { p with error := writeFailed } w
  | written (ha : p.action = 2) (a : Nat) (n : UInt32) (hl : Live w.server p.hndl a n)
      (ho : p.offset < n) :
      Outcome os w p p
        { w with space := w.space.memcpyTo (Server.addrWithOffset a p.size p.offset) p.data }
  | freeInvalid (ha : p.action = 3) (hd : w.server.addrMap.find p.hndl = none) :
      Outcome os w p { p with error := invalidHandle } w
  | freeFailed (ha : p.action = 3) (a : Nat) (n : UInt32) (hl : Live w.server p.hndl a n)
      (hm : (w.space.munmap a (n * p.size).toNat os.munmapAnswer).1 = false) :
      Outcome os w p { p with error := freeFailed } w
  | freed (ha : p.action = 3) (a : Nat) (n : UInt32) (hl : Live w.server p.hndl a n)
      (hm : (w.space.munmap a (n * p.size).toNat os.munmapAnswer).1 = true) :
      Outcome os w p p
        ⟨Server.freed w.server p.hndl, (w.space.munmap a (n * p.size).toNat os.munmapAnswer).2⟩
  | unknown (h0 : p.action ≠ 0) (h1 : p.action ≠ 1) (h2 : p.action ≠ 2) (h3 : p.action ≠ 3) :
      Outcome os w p { p with error := unknownAction } w

lemma handleOfCount_ne_neg_one (n : UInt32) : handleOfCount n ≠ -1 := by
  intro he
  have h : (n.toNat : Int) = -1 := he
  omega

lemma InStep.live {s : Server} (hs : InStep s) {h : Handle} (hk : s.addrMap.find h ≠ none) :
    ∃ a n, Live s h a n := by
  obtain ⟨a, ha⟩ := Option.ne_none_iff_exists'.mp hk
  have hn : s.hndlNPages.find h ≠ none := fun hn => hk ((hs.keys h).mpr hn)
  obtain ⟨n, hn⟩ := Option.ne_none_iff_exists'.mp hn
  exact ⟨a, n, ha, hn⟩

section Runs

variable (os : Os) (w : Host)

@[simp] lemma run_getNewHandle : Server.getNewHandle.run (ServerOp.exec os) w =
    (w.server.handleCount, { w with server.handleCount := w.server.handleCount + 1 }) := rfl

@[simp] lemma run_setAddrMap (h : Handle) (a : Nat) :
    (Server.setAddrMap h a).run (ServerOp.exec os) w =
      ((), { w with server.addrMap := w.server.addrMap.set h a }) := rfl

@[simp] lemma run_unsetAddrMap (h : Handle) : (Server.unsetAddrMap h).run (ServerOp.exec os) w =
    ((), { w with server.addrMap := w.server.addrMap.erase h }) := rfl

@[simp] lemma run_setHndlNPages (h : Handle) (n : UInt32) :
    (Server.setHndlNPages h n).run (ServerOp.exec os) w =
      ((), { w with server.hndlNPages := w.server.hndlNPages.set h n }) := rfl

@[simp] lemma run_unsetHndlNPages (h : Handle) :
    (Server.unsetHndlNPages h).run (ServerOp.exec os) w =
      ((), { w with server.hndlNPages := w.server.hndlNPages.erase h }) := rfl

@[simp] lemma run_containsKey (h : Handle) : (Server.containsKey h).run (ServerOp.exec os) w =
    (decide (w.server.addrMap.Contains h), w) := rfl

@[simp] lemma run_mmap (len : Nat) : (Server.mmap len).run (ServerOp.exec os) w =
    ((w.space.mmap len os.mmapAnswer).1,
      { w with space := (w.space.mmap len os.mmapAnswer).2 }) := rfl

@[simp] lemma run_munmap (a len : Nat) : (Server.munmap a len).run (ServerOp.exec os) w =
    ((w.space.munmap a len os.munmapAnswer).1,
      { w with space := (w.space.munmap a len os.munmapAnswer).2 }) := rfl

@[simp] lemma run_memcpyFrom (a : Nat) : (Server.memcpyFrom a).run (ServerOp.exec os) w =
    (w.space.memcpyFrom a, w) := rfl

@[simp] lemma run_memcpyTo (a : Nat) (data : Page) :
    (Server.memcpyTo a data).run (ServerOp.exec os) w =
      ((), { w with space := w.space.memcpyTo a data }) := rfl

lemma run_getAddrMap_live {h : Handle} {a : Nat} {n : UInt32} (hl : Live w.server h a n) :
    (Server.getAddrMap h).run (ServerOp.exec os) w = (a, w) := by
  change (w.server.addrMap.index 0 h, { w with server.addrMap := w.server.addrMap.indexed 0 h }) = _
  rw [UnorderedMap.index_of_find_some _ _ hl.1, UnorderedMap.indexed_of_find_some _ _ _ hl.1]

lemma run_getHndlNPages_live {h : Handle} {a : Nat} {n : UInt32} (hl : Live w.server h a n) :
    (Server.getHndlNPages h).run (ServerOp.exec os) w = (n, w) := by
  change (w.server.hndlNPages.index 0 h,
    { w with server.hndlNPages := w.server.hndlNPages.indexed 0 h }) = _
  rw [UnorderedMap.index_of_find_some _ _ hl.2, UnorderedMap.indexed_of_find_some _ _ _ hl.2]

lemma performed_containsKey (h : Handle) : (Server.containsKey h).performed (ServerOp.exec os) w =
    [(w, .containsKey h)] := rfl

lemma performed_getHndlNPages (h : Handle) :
    (Server.getHndlNPages h).performed (ServerOp.exec os) w = [(w, .getHndlNPages h)] := rfl

lemma performed_getAddrMap (h : Handle) : (Server.getAddrMap h).performed (ServerOp.exec os) w =
    [(w, .getAddrMap h)] := rfl

lemma performed_read_live {h : Handle} {a : Nat} {n : UInt32} (hl : Live w.server h a n)
    (p : Packet) :
    (Server.read h p).performed (ServerOp.exec os) w =
      [(w, .getHndlNPages h), (w, .getAddrMap h)] ++
        if n ≤ p.offset then []
        else [(w, .memcpyFrom (Server.addrWithOffset a p.size p.offset))] := by
  simp only [Server.read, Program.performed_bind, performed_getHndlNPages, performed_getAddrMap,
    run_getHndlNPages_live os w hl, run_getAddrMap_live os w hl, ge_iff_le]
  split <;> rfl

lemma performed_write_live {h : Handle} {a : Nat} {n : UInt32} (hl : Live w.server h a n)
    (p : Packet) :
    (Server.write h p).performed (ServerOp.exec os) w =
      [(w, .getHndlNPages h), (w, .getAddrMap h)] ++
        if n ≤ p.offset then []
        else [(w, .memcpyTo (Server.addrWithOffset a p.size p.offset) p.data)] := by
  simp only [Server.write, Program.performed_bind, performed_getHndlNPages, performed_getAddrMap,
    run_getHndlNPages_live os w hl, run_getAddrMap_live os w hl, ge_iff_le]
  split <;> rfl

lemma run_alloc (npages size : UInt32) :
    (Server.alloc npages size).run (ServerOp.exec os) w =
      match w.space.mmap (npages * size).toNat os.mmapAnswer with
      | (none, v) => (-1, { w with space := v })
      | (some a, v) =>
        (handleOfCount w.server.handleCount, ⟨Server.alloced w.server npages a, v⟩) := by
  simp only [Server.alloc, Program.run_bind, run_mmap]
  cases hm : w.space.mmap (npages * size).toNat os.mmapAnswer with
  | mk r v => cases r <;> rfl

lemma run_read_live {h : Handle} {a : Nat} {n : UInt32} (hl : Live w.server h a n) (p : Packet) :
    (Server.read h p).run (ServerOp.exec os) w =
      if n ≤ p.offset then ((-1, p), w)
      else ((0, { p with data :=
        w.space.memcpyFrom (Server.addrWithOffset a p.size p.offset) }), w) := by
  simp only [Server.read, Program.run_bind, run_getHndlNPages_live os w hl,
    run_getAddrMap_live os w hl, ge_iff_le]
  split <;> rfl

lemma run_write_live {h : Handle} {a : Nat} {n : UInt32} (hl : Live w.server h a n) (p : Packet) :
    (Server.write h p).run (ServerOp.exec os) w =
      if n ≤ p.offset then (-1, w)
      else (0, { w with space :=
        w.space.memcpyTo (Server.addrWithOffset a p.size p.offset) p.data }) := by
  simp only [Server.write, Program.run_bind, run_getHndlNPages_live os w hl,
    run_getAddrMap_live os w hl, ge_iff_le]
  split <;> rfl

lemma run_free_live {h : Handle} {a : Nat} {n : UInt32} (hl : Live w.server h a n) (hn : n ≠ 0)
    (size : UInt32) :
    (Server.free h size).run (ServerOp.exec os) w =
      if (w.space.munmap a (n * size).toNat os.munmapAnswer).1 = true then
        (0, ⟨Server.freed w.server h, (w.space.munmap a (n * size).toNat os.munmapAnswer).2⟩)
      else (-1, { w with space := (w.space.munmap a (n * size).toNat os.munmapAnswer).2 }) := by
  have hc : w.server.addrMap.Contains h := by simp [UnorderedMap.Contains, hl.1]
  simp only [Server.free, Program.run_bind, run_containsKey, hc, decide_true, if_true,
    run_getHndlNPages_live os w hl, hn, if_false, run_getAddrMap_live os w hl, run_munmap]
  by_cases hm : (w.space.munmap a (n * size).toNat os.munmapAnswer).1 = true
  · simp only [hm, if_true]
    rfl
  · simp only [hm]
    rfl

end Runs

section Branches

variable (os : Os) (w : Host) (p : Packet)

lemma outcome_alloc (ha : p.action = 0) : Outcome os w p (w.handle os p).1 (w.handle os p).2 := by
  have hr : w.handle os p = (Server.handleAlloc p).run (ServerOp.exec os) w := by
    simp [Host.handle, Server.handle, ha]
  rw [hr, Server.handleAlloc, Program.run_bind, run_alloc]
  cases hm : w.space.mmap (p.npages * p.size).toNat os.mmapAnswer with
  | mk r v =>
    cases r with
    | none =>
      have hv := AddressSpace.mmap_none_snd w.space (p.npages * p.size).toNat os.mmapAnswer (by rw [hm])
      rw [hm] at hv
      subst hv
      exact Outcome.allocFailed ha (by rw [hm])
    | some a =>
      obtain ⟨hlen, hans⟩ := AddressSpace.mmap_some_fst w.space _ os.mmapAnswer a (by rw [hm])
      have hv : v = (w.space.mmap (p.npages * p.size).toNat (some a)).2 := by rw [← hans, hm]
      subst hv
      simp only [handleOfCount_ne_neg_one, if_false]
      exact Outcome.alloced ha a hlen hans

lemma outcome_read (hs : InStep w.server) (ha : p.action = 1) :
    Outcome os w p (w.handle os p).1 (w.handle os p).2 := by
  have hr : w.handle os p = (Server.handleRead p).run (ServerOp.exec os) w := by
    simp [Host.handle, Server.handle, ha]
  rw [hr, Server.handleRead, Program.run_bind, run_containsKey]
  by_cases hk : w.server.addrMap.find p.hndl = none
  · simp only [UnorderedMap.Contains, hk, ne_eq, not_true_eq_false, decide_false,
      Bool.false_eq_true, if_false]
    exact Outcome.readInvalid ha hk
  · obtain ⟨a, n, hl⟩ := hs.live hk
    simp only [UnorderedMap.Contains, ne_eq, hk, not_false_eq_true, decide_true, if_true,
      Program.run_bind, run_read_live os w hl]
    by_cases ho : n ≤ p.offset
    · simp only [ho, if_true]
      exact Outcome.readFailed ha a n hl ho
    · simp only [ho, if_false]
      exact Outcome.read ha a n hl (UInt32.not_le.mp ho)

lemma outcome_write (hs : InStep w.server) (ha : p.action = 2) :
    Outcome os w p (w.handle os p).1 (w.handle os p).2 := by
  have hr : w.handle os p = (Server.handleWrite p).run (ServerOp.exec os) w := by
    simp [Host.handle, Server.handle, ha]
  rw [hr, Server.handleWrite, Program.run_bind, run_containsKey]
  by_cases hk : w.server.addrMap.find p.hndl = none
  · simp only [UnorderedMap.Contains, hk, ne_eq, not_true_eq_false, decide_false,
      Bool.false_eq_true, if_false]
    exact Outcome.writeInvalid ha hk
  · obtain ⟨a, n, hl⟩ := hs.live hk
    simp only [UnorderedMap.Contains, ne_eq, hk, not_false_eq_true, decide_true, if_true,
      Program.run_bind, run_write_live os w hl]
    by_cases ho : n ≤ p.offset
    · simp only [ho, if_true]
      exact Outcome.writeFailed ha a n hl ho
    · simp only [ho, if_false]
      exact Outcome.written ha a n hl (UInt32.not_le.mp ho)

lemma outcome_free (hs : InStep w.server) (ha : p.action = 3) :
    Outcome os w p (w.handle os p).1 (w.handle os p).2 := by
  have hr : w.handle os p = (Server.handleFree p).run (ServerOp.exec os) w := by
    simp [Host.handle, Server.handle, ha]
  rw [hr, Server.handleFree, Program.run_bind, run_containsKey]
  by_cases hk : w.server.addrMap.find p.hndl = none
  · simp only [UnorderedMap.Contains, hk, ne_eq, not_true_eq_false, decide_false,
      Bool.false_eq_true, if_false]
    exact Outcome.freeInvalid ha hk
  · obtain ⟨a, n, hl⟩ := hs.live hk
    simp only [UnorderedMap.Contains, ne_eq, hk, not_false_eq_true, decide_true, if_true,
      Program.run_bind, run_free_live os w hl (hs.npages_ne _ _ hl.2)]
    cases hm : (w.space.munmap a (n * p.size).toNat os.munmapAnswer).1 with
    | false =>
      simp only [Bool.false_eq_true, if_false, if_true, AddressSpace.munmap_false_snd _ _ _ _ hm]
      exact Outcome.freeFailed ha a n hl hm
    | true =>
      simp only [if_true]
      exact Outcome.freed ha a n hl hm

/-- A call from a state in step takes one of the branches of `Outcome`. -/
theorem handle_outcome (hs : InStep w.server) :
    Outcome os w p (w.handle os p).1 (w.handle os p).2 := by
  by_cases h0 : p.action = 0
  · exact outcome_alloc os w p h0
  by_cases h1 : p.action = 1
  · exact outcome_read os w p hs h1
  by_cases h2 : p.action = 2
  · exact outcome_write os w p hs h2
  by_cases h3 : p.action = 3
  · exact outcome_free os w p hs h3
  · have hr : w.handle os p = ({ p with error := unknownAction }, w) := by
      simp [Host.handle, Server.handle, h0, h1, h2, h3]
    rw [hr]
    exact Outcome.unknown h0 h1 h2 h3

lemma handle_write_live (ha : p.action = 2) {a : Nat} {n : UInt32} (hl : Live w.server p.hndl a n)
    (ho : p.offset < n) :
    w.handle os p =
      (p, { w with space := w.space.memcpyTo (Server.addrWithOffset a p.size p.offset) p.data }) := by
  have hc : w.server.addrMap.Contains p.hndl := by simp [UnorderedMap.Contains, hl.1]
  simp [Host.handle, Server.handle, ha, Server.handleWrite, hc, run_write_live os w hl,
    UInt32.not_le.mpr ho]

lemma handle_read_live (ha : p.action = 1) {a : Nat} {n : UInt32} (hl : Live w.server p.hndl a n)
    (ho : p.offset < n) :
    w.handle os p =
      ({ p with data := w.space.memcpyFrom (Server.addrWithOffset a p.size p.offset) }, w) := by
  have hc : w.server.addrMap.Contains p.hndl := by simp [UnorderedMap.Contains, hl.1]
  simp [Host.handle, Server.handle, ha, Server.handleRead, hc, run_read_live os w hl,
    UInt32.not_le.mpr ho]

lemma handle_alloc_granted (ha : p.action = 0) {b : Nat} (hlen : (p.npages * p.size).toNat ≠ 0)
    (hm : os.mmapAnswer = some b) :
    w.handle os p =
      ({ p with hndl := handleOfCount w.server.handleCount },
        ⟨Server.alloced w.server p.npages b,
          (w.space.mmap (p.npages * p.size).toNat (some b)).2⟩) := by
  have hr : w.handle os p = (Server.handleAlloc p).run (ServerOp.exec os) w := by
    simp [Host.handle, Server.handle, ha]
  have hmm : w.space.mmap (p.npages * p.size).toNat os.mmapAnswer =
      (some b, (w.space.mmap (p.npages * p.size).toNat (some b)).2) := by
    rw [hm]
    exact Prod.ext (w.space.mmap_some hlen) rfl
  rw [hr, Server.handleAlloc, Program.run_bind, run_alloc, hmm]
  simp [handleOfCount_ne_neg_one]

lemma handle_free_granted (ha : p.action = 3) {a : Nat} {n : UInt32}
    (hl : Live w.server p.hndl a n) (hn : n ≠ 0)
    (hm : (w.space.munmap a (n * p.size).toNat os.munmapAnswer).1 = true) :
    w.handle os p =
      (p, ⟨Server.freed w.server p.hndl,
        (w.space.munmap a (n * p.size).toNat os.munmapAnswer).2⟩) := by
  have hc : w.server.addrMap.Contains p.hndl := by simp [UnorderedMap.Contains, hl.1]
  have hr : w.handle os p = (Server.handleFree p).run (ServerOp.exec os) w := by
    simp [Host.handle, Server.handle, ha]
  rw [hr, Server.handleFree, Program.run_bind, run_containsKey]
  simp only [hc, decide_true, if_true, Program.run_bind, run_free_live os w hl hn, if_pos hm]
  rfl

end Branches

/-- `alloc` fails exactly when the length is 0 or the kernel refuses. -/
lemma alloc_ne_neg_one_iff (os : Os) (w : Host) (npages size : UInt32) :
    ((Server.alloc npages size).run (ServerOp.exec os) w).1 ≠ -1 ↔
      (npages * size).toNat ≠ 0 ∧ ∃ a, os.mmapAnswer = some a := by
  rw [run_alloc]
  generalize (npages * size).toNat = len
  by_cases hlen : len = 0
  · simp [AddressSpace.mmap, hlen]
  · cases hm : os.mmapAnswer with
    | none => simp [AddressSpace.mmap]
    | some a => simp [AddressSpace.mmap, hlen, handleOfCount_ne_neg_one]

lemma npages_ne_zero_of_mul {npages size : UInt32} (h : (npages * size).toNat ≠ 0) :
    npages ≠ 0 := by
  rintro rfl
  simp at h

lemma fresh_inStep (mem : Nat → UInt8) : InStep (Host.fresh mem).server where
  keys := by simp [Host.fresh]
  addr_ne := by simp [Host.fresh]
  npages_ne := by simp [Host.fresh]

lemma toNat_mul_of_lt {x y : UInt32} (h : x.toNat * y.toNat < 2 ^ 32) :
    (x * y).toNat = x.toNat * y.toNat := by
  rw [UInt32.toNat_mul, Nat.mod_eq_of_lt h]

lemma addrWithOffset_of_lt {a : Nat} (size : UInt32) {i : UInt32} (hi : i.toNat * size.toNat < 2 ^ 32)
    (ha : a + i.toNat * size.toNat < 2 ^ 64) :
    Server.addrWithOffset a size i = a + i.toNat * size.toNat := by
  unfold Server.addrWithOffset
  rw [UInt32.mul_comm, toNat_mul_of_lt hi]
  exact Nat.mod_eq_of_lt ha

lemma le_pageRound (len : Nat) : len ≤ pageRound len := by
  unfold pageRound
  omega

lemma pageRound_le {len : Nat} (h : len < 2 ^ 32) : pageRound len ≤ 2 ^ 32 := by
  unfold pageRound
  omega

lemma fresh_mmapAnswer (mem : Nat → UInt8) {len : Nat} (hlen : len < 2 ^ 32) :
    (Host.fresh mem).space.MmapAnswer len (some 4096) := by
  intro a ha
  obtain rfl : 4096 = a := Option.some.inj ha
  have hround := pageRound_le hlen
  exact ⟨by decide, by decide, by omega, fun x _ => rfl⟩

lemma InStep.alloced {s : Server} (hs : InStep s) {npages : UInt32} {a : Nat} (hn : npages ≠ 0)
    (ha : a ≠ 0) : InStep (Server.alloced s npages a) where
  keys h := by
    simp only [Server.alloced, UnorderedMap.find_set]
    split
    · simp
    · exact hs.keys h
  addr_ne h b hb := by
    simp only [Server.alloced, UnorderedMap.find_set] at hb
    split at hb
    · obtain rfl : a = b := by simpa using hb
      exact ha
    · exact hs.addr_ne h b hb
  npages_ne h n hb := by
    simp only [Server.alloced, UnorderedMap.find_set] at hb
    split at hb
    · obtain rfl : npages = n := by simpa using hb
      exact hn
    · exact hs.npages_ne h n hb

lemma InStep.freed {s : Server} (hs : InStep s) (h : Handle) : InStep (Server.freed s h) where
  keys g := by
    simp only [Server.freed, UnorderedMap.find_erase]
    split
    · simp
    · exact hs.keys g
  addr_ne g b hb := by
    simp only [Server.freed, UnorderedMap.find_erase] at hb
    split at hb
    · simp at hb
    · exact hs.addr_ne g b hb
  npages_ne g n hb := by
    simp only [Server.freed, UnorderedMap.find_erase] at hb
    split at hb
    · simp at hb
    · exact hs.npages_ne g n hb

/-- The handles in use are below the counter. -/
def HandlesBelow (s : Server) : Prop :=
  ∀ h a, s.addrMap.find h = some a → ∃ k, k < s.handleCount.toNat ∧ h = Int.ofNat k

lemma HandlesBelow.fresh_handle {s : Server} (hs : HandlesBelow s) :
    s.addrMap.find (handleOfCount s.handleCount) = none := by
  by_contra hk
  obtain ⟨a, ha⟩ := Option.ne_none_iff_exists'.mp hk
  obtain ⟨k, hk, he⟩ := hs _ a ha
  have hcount : s.handleCount.toNat = k := Int.ofNat.inj he
  omega

lemma toNat_handleCount_add_one {s : Server} (hc : s.handleCount.toNat + 1 < 2 ^ 32) :
    (s.handleCount + 1).toNat = s.handleCount.toNat + 1 := by
  rw [UInt32.toNat_add, UInt32.toNat_one]
  omega

lemma HandlesBelow.alloced {s : Server} (hs : HandlesBelow s)
    (hc : s.handleCount.toNat + 1 < 2 ^ 32) (npages : UInt32) (a : Nat) :
    HandlesBelow (Server.alloced s npages a) := by
  intro h b hb
  simp only [Server.alloced, UnorderedMap.find_set] at hb ⊢
  rw [toNat_handleCount_add_one hc]
  split at hb
  · next hh => exact ⟨_, Nat.lt_succ_self _, hh⟩
  · obtain ⟨k, hk, rfl⟩ := hs h b hb
    exact ⟨k, by omega, rfl⟩

lemma HandlesBelow.freed {s : Server} (hs : HandlesBelow s) (h : Handle) :
    HandlesBelow (Server.freed s h) := by
  intro g a hg
  simp only [Server.freed, UnorderedMap.find_erase] at hg
  split at hg
  · simp at hg
  · exact hs g a hg

lemma live_alloced {s : Server} {npages n : UInt32} {b a : Nat} {h : Handle} :
    Live (Server.alloced s npages b) h a n ↔
      (h = handleOfCount s.handleCount ∧ b = a ∧ npages = n) ∨
        (h ≠ handleOfCount s.handleCount ∧ Live s h a n) := by
  simp only [Live, Server.alloced, UnorderedMap.find_set]
  by_cases hh : h = handleOfCount s.handleCount <;> simp [hh]

lemma live_freed {s : Server} {n : UInt32} {a : Nat} {h g : Handle} :
    Live (Server.freed s g) h a n ↔ h ≠ g ∧ Live s h a n := by
  simp only [Live, Server.freed, UnorderedMap.find_erase]
  by_cases hh : h = g <;> simp [hh]

lemma Live.unique {s : Server} {h : Handle} {a a' : Nat} {n n' : UInt32} (hl : Live s h a n)
    (hl' : Live s h a' n') : a = a' ∧ n = n' :=
  ⟨Option.some.inj (hl.1.symm.trans hl'.1), Option.some.inj (hl.2.symm.trans hl'.2)⟩

/-- A call keeps the maps in step. -/
theorem handle_inStep_of_ne {os : Os} {w : Host} {p : Packet}
    (ha : p.action = 0 → ∀ a, os.mmapAnswer = some a → a ≠ 0) (hs : InStep w.server) :
    InStep (w.handle os p).2.server := by
  have ho := handle_outcome os w p hs
  generalize (w.handle os p).1 = r at ho
  generalize (w.handle os p).2 = w' at ho
  cases ho with
  | alloced h0 a hlen hm => exact hs.alloced (npages_ne_zero_of_mul hlen) (ha h0 a hm)
  | freed h3 a n hl hm => exact hs.freed p.hndl
  | _ => exact hs

lemma handle_inStep {os : Os} {w : Host} {p : Packet} (ha : os.Admissible w p)
    (hs : InStep w.server) : InStep (w.handle os p).2.server :=
  handle_inStep_of_ne (fun h0 a hm => (ha h0 a hm).1) hs

lemma step_inStep {w w' : Host} {c : Call} (hs : InStep w.server) (h : Host.Step w c w') :
    InStep w'.server := by
  have hi := handle_inStep h.1 hs
  rwa [h.2] at hi

lemma step_outcome {w w' : Host} {c : Call} (hs : InStep w.server) (h : Host.Step w c w') :
    Outcome c.os w c.packet c.reply w' := by
  have ho := handle_outcome c.os w c.packet hs
  rwa [h.2] at ho

/-- Handling packets in order is a run of calls that meet `A`. -/
lemma handleAll_run_of {A : Host → Call → Prop} (w : Host) (l : List (Os × Packet))
    (h : ∀ x ∈ (w.handleAll l).1, A x.1 x.2) :
    Run (fun w c w' => A w c ∧ w.handle c.os c.packet = (c.reply, w')) w
      (w.handleAll l).1 (w.handleAll l).2 := by
  induction l generalizing w with
  | nil => exact Run.nil
  | cons x l ih =>
    obtain ⟨os, p⟩ := x
    have hx := h (w, ⟨os, p, (w.handle os p).1⟩) (by simp [Host.handleAll])
    refine Run.cons ⟨hx, rfl⟩ (ih _ ?_)
    intro y hy
    exact h y (List.mem_cons_of_mem _ hy)

lemma handleAll_run (w : Host) (l : List (Os × Packet))
    (h : ∀ x ∈ (w.handleAll l).1, x.2.os.Admissible x.1 x.2.packet) :
    Run Host.Step w (w.handleAll l).1 (w.handleAll l).2 :=
  handleAll_run_of w l h

/-- The maps are in step in every state a fresh server reaches. -/
theorem run_inStep {mem : Nat → UInt8} {tr : List (Host × Call)} {w : Host}
    (h : Run Host.Step (Host.fresh mem) tr w) : InStep w.server :=
  h.invariant (C := fun _ _ => True) (fun _ _ _ hs _ hst => step_inStep hs hst)
    (fresh_inStep mem) (fun _ _ => trivial)

lemma step_handleCount_le {w w' : Host} {c : Call} (hs : InStep w.server) (h : Host.Step w c w') :
    w'.server.handleCount.toNat ≤
      w.server.handleCount.toNat + if c.packet.action = 0 then 1 else 0 := by
  have ho := step_outcome hs h
  obtain ⟨os, p, r⟩ := c
  dsimp only at ho ⊢
  cases ho with
  | alloced h0 a hlen hm =>
    have hle : (w.server.handleCount + 1).toNat ≤ w.server.handleCount.toNat + 1 := by
      rw [UInt32.toNat_add, UInt32.toNat_one]
      exact Nat.mod_le _ _
    simpa [h0, Server.alloced] using hle
  | _ => simp [Server.freed]

/-- The handle counter is at most the number of allocation requests handled. -/
theorem run_handleCount_le {mem : Nat → UInt8} {tr : List (Host × Call)} {w : Host}
    (h : Run Host.Step (Host.fresh mem) tr w) :
    w.server.handleCount.toNat ≤ tr.countP (fun x => x.2.packet.action = 0) := by
  induction h with
  | nil => simp [Host.fresh]
  | @snoc t u tr c hr hs ih =>
    have hle := step_handleCount_le (run_inStep hr) hs
    rw [List.countP_append, List.countP_singleton]
    by_cases h0 : c.packet.action = 0
    · simp only [h0, decide_true, if_true] at hle ⊢
      omega
    · simp only [h0, decide_false, if_false, Bool.false_eq_true] at hle ⊢
      omega

/-- With fewer than `2 ^ 32` allocation requests the counter does not wrap around. -/
lemma run_handleCount_lt {mem : Nat → UInt8} {tr : List (Host × Call)} {w : Host}
    (h : Run Host.Step (Host.fresh mem) tr w)
    (hcount : tr.countP (fun x => x.2.packet.action = 0) < 2 ^ 32) :
    ∀ x ∈ tr, x.2.packet.action = 0 → x.1.server.handleCount.toNat + 1 < 2 ^ 32 := by
  intro x hx h0
  obtain ⟨tr', u, hp, hrun, -⟩ := h.reached x hx
  have hle := run_handleCount_le hrun
  have hsub := hp.sublist.countP_le (p := fun x => decide (x.2.packet.action = 0))
  rw [List.countP_append, List.countP_singleton] at hsub
  simp only [h0, decide_true, if_true] at hsub
  omega

end RemoteMemoryPool.Proofs
