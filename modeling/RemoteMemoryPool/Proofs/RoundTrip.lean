import RemoteMemoryPool.Model.PageTransfer
import RemoteMemoryPool.Proofs.ClientSpec
import RemoteMemoryPool.Proofs.Handles
import RemoteMemoryPool.Proofs.PageStore
import RemoteMemoryPool.Proofs.ServerRegions

/-!
# Pages written and read back at any page size

A page of `pageSize` bytes passes three lengths on its way: the copies of the client take
`pageSize`, the array `data` and the copies of the server take 4096, and the stride between pages
is the `size` field. The stride keeps pages apart on the server for every page size from 4096 on,
so the first 4096 bytes always come back (`first_bytes_survive`); the copies of the client stay
inside `data` only at 4096.
-/

namespace RemoteMemoryPool.Proofs

open Interaction Transition

/-- At 4096 bytes the operations of a transfer are those of `Client`. -/
def TransferOp.toClient (buf : Buf) : (op : TransferOp) → ClientM op.Res
  | .connected => do return (← Client.get).connected
  | .packetObject => Client.packetObject
  | .memcpyToData _ _ => Client.loadPage buf
  | .memcpyFromData data _ => Client.storePage buf data
  | .send packet => Client.send packet
  | .recv => Client.recv

theorem rmpWritePage_4096 (hd : Handle) (offset : Nat) (buf : Buf) :
    (PageTransfer.rmpWritePage 4096 hd offset).interpret (TransferOp.toClient buf) =
      Client.rmpWritePage hd offset buf := by
  apply congrArg (Program.call ClientOp.get)
  funext g
  exact apply_ite (Program.interpret (TransferOp.toClient buf)) (g.connected = true) _ _

theorem rmpReadPage_4096 (hd : Handle) (offset : Nat) (buf : Buf) :
    (PageTransfer.rmpReadPage 4096 hd offset).interpret (TransferOp.toClient buf) =
      Client.rmpReadPage hd offset buf := by
  apply congrArg (Program.call ClientOp.get)
  funext g
  exact apply_ite (Program.interpret (TransferOp.toClient buf)) (g.connected = true) _ _

lemma allocRequest_4096 (env : Env) (s : System) (npages : UInt32) :
    PageTransfer.allocRequest 4096 npages (env.packetObject s.log.length) =
      allocRequest env s npages := by
  rfl

/-- The regions of the live handles are mapped and apart, and each has the length its page count
and the stride give. -/
def Strided (size : UInt32) (w : Host) : Prop :=
  ∃ x : Tracked, x.host = w ∧ Separate x ∧
    ∀ h a n, Live w.server h a n → (x.region h).2 = (n * size).toNat

section Strided

variable {size : UInt32} {w w' : Host} {c : Call} {h h' : Handle} {a a' : Nat} {n n' : UInt32}

lemma fresh_strided (mem : Nat → UInt8) : Strided size (Host.fresh mem) :=
  ⟨Tracked.fresh mem, rfl, fresh_separate mem, by simp [Live, Host.fresh]⟩

lemma Strided.inStep (hw : Strided size w) : InStep w.server := by
  obtain ⟨x, rfl, hx, -⟩ := hw
  exact hx.placed.inStep

lemma inRegionOf_iff {x : Tracked} (hx : Placed x)
    (hlen : ∀ h a n, Live x.host.server h a n → (x.region h).2 = (n * size).toNat)
    (hl : Live x.host.server h a n) (y : Nat) :
    x.inRegionOf h y ↔ inRegion a (n * size).toNat y = true := by
  rw [Tracked.inRegionOf, (hx.region h a n hl).1, hlen h a n hl]

lemma Strided.bound (hw : Strided size w) (hl : Live w.server h a n) :
    a + pageRound (n * size).toNat ≤ 2 ^ 64 := by
  obtain ⟨x, rfl, hx, hlen⟩ := hw
  have hb := (hx.placed.region h a n hl).2.2.2
  rwa [hlen h a n hl] at hb

lemma Strided.mapped (hw : Strided size w) (hl : Live w.server h a n) {y : Nat}
    (hy : inRegion a (n * size).toNat y = true) : w.space.mapped y = true := by
  obtain ⟨x, rfl, hx, hlen⟩ := hw
  exact hx.mapped h a n hl y ((inRegionOf_iff hx.placed hlen hl y).mpr hy)

lemma Strided.apart (hw : Strided size w) (hl : Live w.server h a n)
    (hl' : Live w.server h' a' n') (hne : h ≠ h') {y : Nat}
    (hy : inRegion a (n * size).toNat y = true) : ¬inRegion a' (n' * size).toNat y = true := by
  obtain ⟨x, rfl, hx, hlen⟩ := hw
  intro hy'
  exact hx.apart h h' a a' n n' hl hl' hne y ((inRegionOf_iff hx.placed hlen hl y).mpr hy)
    ((inRegionOf_iff hx.placed hlen hl' y).mpr hy')

/-- Requests that carry the stride keep the regions so. -/
theorem Strided.step (hw : Strided size w) (hc : c.packet.size = size) (hs : Host.Step w c w') :
    Strided size w' := by
  obtain ⟨x, rfl, hx, hlen⟩ := hw
  obtain ⟨os, p, r⟩ := c
  obtain ⟨hadm, hh⟩ := hs
  dsimp only at hc hadm hh
  subst hc
  have hhost : (x.after os p).host = w' := congrArg Prod.snd hh
  -- a free unmaps the region of its own handle
  have hfree : FreesApart x (os, p) := by
    intro _ _ a n hl h' a' n' hne hl' y hy hy'
    have hy := (inRegionOf_iff hx.placed hlen hl y).mpr hy
    exact hx.apart _ _ a a' n n' hl hl' (fun h => hne h.symm) y hy hy'
  refine ⟨x.after os p, hhost, hx.step hfree ⟨hadm, rfl⟩, ?_⟩
  rw [← hhost]
  intro h a n hl
  rcases Tracked.after_cases os p hx.placed.inStep with
    ⟨b, -, -, -, he⟩ | ⟨b, m, -, -, -, he⟩ | ⟨hsv, -, hr, -, -⟩
  · rw [he] at hl ⊢
    rcases live_alloced.mp hl with ⟨rfl, rfl, rfl⟩ | ⟨hne, hl⟩
    · simp
    · simpa [Function.update_of_ne hne] using hlen h a n hl
  · rw [he] at hl ⊢
    exact hlen h a n (live_freed.mp hl).2
  · rw [hsv] at hl
    rw [hr]
    exact hlen h a n hl

lemma run_strided {mem : Nat → UInt8} {tr : List (Host × Call)}
    (hrun : Run Host.Step (Host.fresh mem) tr w) (hsize : ∀ x ∈ tr, x.2.packet.size = size) :
    Strided size w :=
  hrun.invariant (C := fun _ c => c.packet.size = size) (fun _ _ _ hw hc hs => hw.step hc hs)
    (fresh_strided mem) hsize

/-! ### One page -/

lemma stride_le (size : UInt32) {i j : UInt32} (hij : i < j) :
    i.toNat * size.toNat + size.toNat ≤ j.toNat * size.toNat := by
  have hmul := Nat.mul_le_mul_right size.toNat (UInt32.lt_iff_toNat_lt.mp hij)
  rwa [Nat.succ_mul] at hmul

lemma addrWithOffset_stride {i : UInt32} (hn : n.toNat * size.toNat < 2 ^ 32)
    (hb : a + pageRound (n * size).toNat ≤ 2 ^ 64) (hsize : 4096 ≤ size.toNat) (hi : i < n) :
    Server.addrWithOffset a size i = a + i.toNat * size.toNat := by
  have hend := stride_le size hi
  have hle := le_pageRound (n * size).toNat
  have hlen : (n * size).toNat = n.toNat * size.toNat := toNat_mul_of_lt hn
  exact addrWithOffset_of_lt size (by omega) (by omega)

lemma Strided.page_inRegion {i : UInt32} (hw : Strided size w) (hl : Live w.server h a n)
    (hsize : 4096 ≤ size.toNat) (hn : n.toNat * size.toNat < 2 ^ 32) (hi : i < n) {y : Nat}
    (hy : Server.addrWithOffset a size i ≤ y) (hy' : y < Server.addrWithOffset a size i + 4096) :
    inRegion a (n * size).toNat y = true := by
  have hend := stride_le size hi
  have hle := le_pageRound (n * size).toNat
  have hlen : (n * size).toNat = n.toNat * size.toNat := toNat_mul_of_lt hn
  rw [addrWithOffset_stride hn (hw.bound hl) hsize hi] at hy hy'
  exact (inRegion_iff _ _ _).mpr (by omega)

lemma Strided.pages_apart {i j : UInt32} (hw : Strided size w) (hsize : 4096 ≤ size.toNat)
    (hl : Live w.server h a n) (hn : n.toNat * size.toNat < 2 ^ 32) (hi : i < n)
    (hl' : Live w.server h' a' n') (hn' : n'.toNat * size.toNat < 2 ^ 32) (hj : j < n')
    (hne : ¬(h = h' ∧ i = j)) :
    Server.addrWithOffset a size i + 4096 ≤ Server.addrWithOffset a' size j ∨
      Server.addrWithOffset a' size j + 4096 ≤ Server.addrWithOffset a size i := by
  by_cases hh : h = h'
  · subst hh
    obtain ⟨rfl, rfl⟩ := hl.unique hl'
    have hij : i ≠ j := fun he => hne ⟨rfl, he⟩
    rw [addrWithOffset_stride hn (hw.bound hl) hsize hi,
      addrWithOffset_stride hn (hw.bound hl) hsize hj]
    rcases UInt32.lt_or_lt_of_ne hij with hlt | hlt
    · have hstep := stride_le size hlt
      omega
    · have hstep := stride_le size hlt
      omega
  · by_contra hc
    -- pages that overlap share the larger of their addresses
    have hy := hw.page_inRegion hl hsize hn hi
      (y := max (Server.addrWithOffset a size i) (Server.addrWithOffset a' size j))
      (by omega) (by omega)
    have hy' := hw.page_inRegion hl' hsize hn' hj
      (y := max (Server.addrWithOffset a size i) (Server.addrWithOffset a' size j))
      (by omega) (by omega)
    exact hw.apart hl hl' hh hy hy'

lemma memcpyFrom_mmap {v : AddressSpace} {len b : Nat} (hlen : len ≠ 0) (x : Nat)
    (hout : ∀ y, x ≤ y → y < x + 4096 → ¬inRegion b len y = true) :
    (v.mmap len (some b)).2.memcpyFrom x = v.memcpyFrom x := by
  funext j
  have hj := hout (x + j) (by omega) (by omega)
  rw [v.mmap_snd hlen]
  simp only [AddressSpace.memcpyFrom, hj, if_false, Bool.false_eq_true]

lemma memcpyFrom_munmap (v : AddressSpace) (b len : Nat) (answer : Bool) (x : Nat) :
    (v.munmap b len answer).2.memcpyFrom x = v.memcpyFrom x := by
  unfold AddressSpace.munmap
  split <;> rfl

def KeepsHandle (h : Handle) (c : Call) : Prop := ¬(c.packet.action = 3 ∧ c.packet.hndl = h)

def KeepsPage (h : Handle) (i : UInt32) (c : Call) : Prop :=
  ¬(c.packet.action = 2 ∧ c.packet.hndl = h ∧ c.packet.offset = i)

/-- If the call is an allocation, its handle is not `h`. -/
def OtherHandle (h : Handle) (w : Host) (c : Call) : Prop :=
  Granted (w, c) → handleOfCount w.server.handleCount ≠ h

/-- If the call is a write, it is to a region whose length fits into a `u32`. -/
def WritesFitting (pageSize : Nat) (w : Host) (c : Call) : Prop :=
  c.packet.action = 2 → ∀ a n, Live w.server c.packet.hndl a n → n.toNat * pageSize < 2 ^ 32

lemma live_kept (hi : InStep w.server) (hl : Live w.server h a n) (hk : KeepsHandle h c)
    (ho : OtherHandle h w c) (hs : Host.Step w c w') : Live w'.server h a n := by
  have hout := step_outcome hi hs
  obtain ⟨os, p, r⟩ := c
  dsimp only at hout
  cases hout with
  | alloced h0 b hlen hm =>
    have hne : handleOfCount w.server.handleCount ≠ h := ho ⟨h0, hlen, by simp [hm]⟩
    exact live_alloced.mpr (.inr ⟨fun he => hne he.symm, hl⟩)
  | freed h3 b m hl' hm =>
    have hne : p.hndl ≠ h := fun he => hk ⟨h3, he⟩
    exact live_freed.mpr ⟨fun he => hne he.symm, hl⟩
  | _ => exact hl

/-- A call that does not write a page leaves it as it was. -/
theorem page_kept {i : UInt32} (hw : Strided size w) (hsize : 4096 ≤ size.toNat)
    (hl : Live w.server h a n) (hn : n.toNat * size.toNat < 2 ^ 32) (hi : i < n)
    (hc : c.packet.size = size) (hk : KeepsPage h i c) (hf : WritesFitting size.toNat w c)
    (hs : Host.Step w c w') :
    w'.space.memcpyFrom (Server.addrWithOffset a size i) =
      w.space.memcpyFrom (Server.addrWithOffset a size i) := by
  have hout := step_outcome hw.inStep hs
  obtain ⟨os, p, r⟩ := c
  obtain ⟨hadm, -⟩ := hs
  dsimp only at hout hadm hc
  subst hc
  cases hout with
  | alloced h0 b hlen hm =>
    have hans := hadm h0
    rw [hm] at hans
    apply memcpyFrom_mmap hlen
    intro y h1 h2
    exact mmap_apart hans (hw.mapped hl (hw.page_inRegion hl hsize hn hi h1 h2))
  | written h2 b m hl' ho =>
    have hne : ¬(p.hndl = h ∧ p.offset = i) := fun he => hk ⟨h2, he⟩
    exact memcpyFrom_memcpyTo_of_disjoint _ _ _ _
      (hw.pages_apart hsize hl' (hf h2 b m hl') ho hl hn hi hne)
  | freed h3 b m hl' hm => exact memcpyFrom_munmap _ _ _ _ _
  | _ => rfl

/-- A page stays as it is along a run of such calls. -/
theorem run_page_kept {i : UInt32} {tr : List (Host × Call)} (hrun : Run Host.Step w tr w')
    (hw : Strided size w) (hsize : 4096 ≤ size.toNat) (hl : Live w.server h a n)
    (hn : n.toNat * size.toNat < 2 ^ 32) (hi : i < n)
    (hc : ∀ x ∈ tr, x.2.packet.size = size) (hh : ∀ x ∈ tr, KeepsHandle h x.2)
    (ho : ∀ x ∈ tr, OtherHandle h x.1 x.2) (hk : ∀ x ∈ tr, KeepsPage h i x.2)
    (hf : ∀ x ∈ tr, WritesFitting size.toNat x.1 x.2) :
    Live w'.server h a n ∧ w'.space.memcpyFrom (Server.addrWithOffset a size i) =
      w.space.memcpyFrom (Server.addrWithOffset a size i) := by
  have hinv := hrun.invariant
    (I := fun v => Strided size v ∧ Live v.server h a n ∧
      v.space.memcpyFrom (Server.addrWithOffset a size i) =
        w.space.memcpyFrom (Server.addrWithOffset a size i))
    (C := fun v c => c.packet.size = size ∧ KeepsHandle h c ∧ OtherHandle h v c ∧
      KeepsPage h i c ∧ WritesFitting size.toNat v c)
    (fun v c v' hI hC hs => ⟨hI.1.step hC.1 hs, live_kept hI.1.inStep hI.2.1 hC.2.1 hC.2.2.1 hs,
      (page_kept hI.1 hsize hI.2.1 hn hi hC.1 hC.2.2.2.1 hC.2.2.2.2 hs).trans hI.2.2⟩)
    ⟨hw, hl, rfl⟩ (fun x hx => ⟨hc x hx, hh x hx, ho x hx, hk x hx, hf x hx⟩)
  exact hinv.2

lemma run_live_kept {tr : List (Host × Call)} (hrun : Run Host.Step w tr w') (hi : InStep w.server)
    (hl : Live w.server h a n) (hh : ∀ x ∈ tr, KeepsHandle h x.2)
    (ho : ∀ x ∈ tr, OtherHandle h x.1 x.2) : Live w'.server h a n := by
  have hinv := hrun.invariant (I := fun v => InStep v.server ∧ Live v.server h a n)
    (C := fun v c => KeepsHandle h c ∧ OtherHandle h v c)
    (fun v c v' hI hC hs => ⟨step_inStep hI.1 hs, live_kept hI.1 hI.2 hC.1 hC.2 hs⟩)
    ⟨hi, hl⟩ (fun x hx => ⟨hh x hx, ho x hx⟩)
  exact hinv.2

end Strided

/-! ### Transfers -/

section Transfers

variable (env : TransferEnv) (t : Transfer) (pageSize : Nat) (hd : Handle) (offset : Nat)

def pageWriteRequest : Packet :=
  { env.packetObject with
    action := 2
    data := fun j => if j < pageSize then t.page j else env.packetObject.data j
    size := UInt32.ofNat pageSize
    offset := UInt32.ofNat offset
    error := 0
    hndl := hd }

def pageReadRequest : Packet :=
  { env.packetObject with
    action := 1
    offset := UInt32.ofNat offset
    size := UInt32.ofNat pageSize
    error := 0
    hndl := hd }

variable {env}

lemma rmpWrite_host (hc : env.connected = true) :
    (t.execute env (PageTransfer.rmpWrite pageSize hd offset)).host =
      (t.host.handle env.serverOs (pageWriteRequest env t pageSize hd offset)).2 := by
  simp only [Transfer.execute, PageTransfer.rmpWrite, PageTransfer.rmpWritePage,
    PageTransfer.connected, Program.run_bind, Program.run_perform, TransferOp.exec, hc, if_true]
  rfl

lemma rmpRead_page (hc : env.connected = true) {j : Nat} (hj : j < pageSize) :
    (t.execute env (PageTransfer.rmpRead pageSize hd offset)).page j =
      env.fromData
        (t.host.handle env.serverOs (pageReadRequest env pageSize hd offset)).1.data j := by
  simp only [Transfer.execute, PageTransfer.rmpRead, PageTransfer.rmpReadPage,
    PageTransfer.connected, Program.run_bind, Program.run_perform, TransferOp.exec, hc, if_true]
  exact if_pos hj

lemma rmpWrite_copies (hc : env.connected = true) :
    t.copies env (PageTransfer.rmpWrite pageSize hd offset) = [pageSize] := by
  simp only [Transfer.copies, PageTransfer.rmpWrite, PageTransfer.rmpWritePage,
    PageTransfer.connected, Program.performed_bind, Program.performed_perform, Program.run_perform,
    TransferOp.exec, hc, if_true]
  rfl

lemma rmpRead_copies (hc : env.connected = true) :
    t.copies env (PageTransfer.rmpRead pageSize hd offset) = [pageSize] := by
  simp only [Transfer.copies, PageTransfer.rmpRead, PageTransfer.rmpReadPage,
    PageTransfer.connected, Program.performed_bind, Program.performed_perform, Program.run_perform,
    TransferOp.exec, hc, if_true]
  rfl

end Transfers

/-- A region allocated through `rmp_alloc`, a page of it written, and the page read again after
requests that neither write it nor free its handle. -/
structure RoundTrip (pageSize : Nat) where
  mem : Nat → UInt8
  before : List (Host × Call)
  start : Host
  before_run : Run Host.Step (Host.fresh mem) before start
  npages : UInt32
  npages_lt : npages.toNat * pageSize < 2 ^ 32
  sendPkt : Packet
  allocOs : Os
  allocReply : Packet
  allocated : Host
  alloc_step : Host.Step start
    ⟨allocOs, PageTransfer.allocRequest pageSize npages sendPkt, allocReply⟩ allocated
  alloc_granted : allocOs.mmapAnswer.isSome = true
  between : List (Host × Call)
  ready : Host
  between_run : Run Host.Step allocated between ready
  between_keeps : ∀ x ∈ between, KeepsHandle allocReply.hndl x.2
  index : Nat
  index_lt : index < npages.toNat
  page : Nat → UInt8
  writeEnv : TransferEnv
  write_connected : writeEnv.connected = true
  after : List (Host × Call)
  last : Host
  after_run : Run Host.Step (Transfer.execute writeEnv ⟨ready, page, allocReply⟩
    (PageTransfer.rmpWrite pageSize allocReply.hndl index)).host after last
  after_keeps : ∀ x ∈ after, KeepsHandle allocReply.hndl x.2 ∧
    KeepsPage allocReply.hndl (UInt32.ofNat index) x.2
  buffer : Nat → UInt8
  readEnv : TransferEnv
  read_connected : readEnv.connected = true

namespace RoundTrip

variable {pageSize : Nat} (r : RoundTrip pageSize)

def writing : Transfer := ⟨r.ready, r.page, r.allocReply⟩

def reading : Transfer := ⟨r.last, r.buffer, r.allocReply⟩

def write : TransferM Unit := PageTransfer.rmpWrite pageSize r.allocReply.hndl r.index

def read : TransferM Unit := PageTransfer.rmpRead pageSize r.allocReply.hndl r.index

/-- All bytes of the page come back, and the copies of the client stay inside `data`. -/
def Survives : Prop :=
  (∀ j < pageSize, (r.reading.execute r.readEnv r.read).page j = r.page j) ∧
    ∀ len ∈ r.writing.copies r.writeEnv r.write ++ r.reading.copies r.readEnv r.read,
      len ≤ sizeofData

/-- Every request carries the page size, the handle is not handed out a second time, and no write
after that of the page is to a region whose length did not fit into a `u32`. -/
structure Regular : Prop where
  size : ∀ x ∈ r.before ++ r.between ++ r.after, x.2.packet.size = UInt32.ofNat pageSize
  handle : ∀ x ∈ r.between ++ r.after, OtherHandle r.allocReply.hndl x.1 x.2
  fits : ∀ x ∈ r.after, WritesFitting pageSize x.1 x.2

lemma pageSize_le : pageSize ≤ r.npages.toNat * pageSize := by
  have hpos : 1 ≤ r.npages.toNat := Nat.lt_of_le_of_lt (Nat.zero_le _) r.index_lt
  simpa using Nat.mul_le_mul_right pageSize hpos

include r in
lemma toNat_size : (UInt32.ofNat pageSize).toNat = pageSize := by
  have hle := r.pageSize_le
  have hlt := r.npages_lt
  rw [UInt32.toNat_ofNat']
  exact Nat.mod_eq_of_lt (by omega)

lemma length_lt : r.npages.toNat * (UInt32.ofNat pageSize).toNat < 2 ^ 32 := by
  rw [r.toNat_size]
  exact r.npages_lt

lemma index_lt_npages : UInt32.ofNat r.index < r.npages := by
  have hlt := r.index_lt
  have hn := r.npages.toNat_lt
  rw [UInt32.lt_iff_toNat_lt, UInt32.toNat_ofNat', Nat.mod_eq_of_lt (by omega)]
  exact hlt

lemma allocated_live (hps : 4096 ≤ pageSize) :
    ∃ a, Live r.allocated.server r.allocReply.hndl a r.npages := by
  obtain ⟨a, ha⟩ := Option.isSome_iff_exists.mp r.alloc_granted
  have hlen : (r.npages * UInt32.ofNat pageSize).toNat ≠ 0 := by
    have hle := r.pageSize_le
    rw [toNat_mul_of_lt r.length_lt, r.toNat_size]
    omega
  have hh := handle_alloc_granted r.allocOs r.start
    (PageTransfer.allocRequest pageSize r.npages r.sendPkt) rfl hlen ha
  obtain ⟨hreply, hhost⟩ : _ = r.allocReply ∧ _ = r.allocated :=
    Prod.mk.inj (hh.symm.trans r.alloc_step.2)
  refine ⟨a, ?_⟩
  rw [← hreply, ← hhost]
  exact live_alloced.mpr (.inl ⟨rfl, rfl, rfl⟩)

lemma ready_strided (hr : r.Regular) : Strided (UInt32.ofNat pageSize) r.ready := by
  refine run_strided ((r.before_run.snoc r.alloc_step).append r.between_run) ?_
  simp only [List.forall_mem_append, List.forall_mem_singleton]
  have hsize := hr.size
  simp only [List.forall_mem_append] at hsize
  exact ⟨⟨hsize.1.1, rfl⟩, hsize.1.2⟩

lemma ready_live (hps : 4096 ≤ pageSize) (hr : r.Regular) :
    ∃ a, Live r.ready.server r.allocReply.hndl a r.npages := by
  obtain ⟨a, hl⟩ := r.allocated_live hps
  have hi : InStep r.allocated.server := run_inStep (r.before_run.snoc r.alloc_step)
  exact ⟨a, run_live_kept r.between_run hi hl r.between_keeps
    (fun x hx => hr.handle x (List.mem_append_left _ hx))⟩

def writeRequest : Packet :=
  pageWriteRequest r.writeEnv r.writing pageSize r.allocReply.hndl r.index

/-- The server after the page has been written at address `x`. -/
def written (x : Nat) : Host :=
  { r.ready with space := r.ready.space.memcpyTo x r.writeRequest.data }

lemma write_step {a : Nat} (hl : Live r.ready.server r.allocReply.hndl a r.npages) :
    Host.Step r.ready ⟨r.writeEnv.serverOs, r.writeRequest, r.writeRequest⟩
      (r.written (Server.addrWithOffset a (UInt32.ofNat pageSize) (UInt32.ofNat r.index))) := by
  constructor
  · intro h0
    exact absurd h0 (by decide : (2 : UInt32) ≠ 0)
  · exact handle_write_live r.writeEnv.serverOs r.ready r.writeRequest rfl hl r.index_lt_npages

lemma after_run_written {a : Nat} (hl : Live r.ready.server r.allocReply.hndl a r.npages) :
    Run Host.Step
      (r.written (Server.addrWithOffset a (UInt32.ofNat pageSize) (UInt32.ofNat r.index)))
      r.after r.last := by
  have hrun := r.after_run
  rw [rmpWrite_host _ _ _ _ r.write_connected] at hrun
  have hhost : (r.ready.handle r.writeEnv.serverOs r.writeRequest).2 = r.written _ :=
    congrArg Prod.snd (r.write_step hl).2
  rw [← hhost]
  exact hrun

/-- The page on the server is the one that was written when it is read. -/
lemma last_page (hps : 4096 ≤ pageSize) (hr : r.Regular) :
    ∃ a, Live r.last.server r.allocReply.hndl a r.npages ∧
      r.last.space.memcpyFrom
        (Server.addrWithOffset a (UInt32.ofNat pageSize) (UInt32.ofNat r.index)) =
          r.writeRequest.data := by
  obtain ⟨a, hl⟩ := r.ready_live hps hr
  have hw := (r.ready_strided hr).step rfl (r.write_step hl)
  have hsize : 4096 ≤ (UInt32.ofNat pageSize).toNat := by rwa [r.toNat_size]
  have hfits : ∀ x ∈ r.after, WritesFitting (UInt32.ofNat pageSize).toNat x.1 x.2 := by
    rw [r.toNat_size]
    exact hr.fits
  obtain ⟨hl', hkept⟩ := run_page_kept (r.after_run_written hl) hw hsize hl r.length_lt
    r.index_lt_npages (fun x hx => hr.size x (List.mem_append_right _ hx))
    (fun x hx => (r.after_keeps x hx).1) (fun x hx => hr.handle x (List.mem_append_right _ hx))
    (fun x hx => (r.after_keeps x hx).2) hfits
  refine ⟨a, hl', hkept.trans ?_⟩
  exact memcpyFrom_memcpyTo_self _ _ _

/-- At every page size the bytes that fit into `data` come back. -/
theorem first_bytes_survive (hps : 4096 ≤ pageSize) (hr : r.Regular) {j : Nat}
    (hj : j < sizeofData) : (r.reading.execute r.readEnv r.read).page j = r.page j := by
  have hlt : j < pageSize := Nat.lt_of_lt_of_le hj hps
  obtain ⟨a, hl, hpage⟩ := r.last_page hps hr
  have hread := handle_read_live r.readEnv.serverOs r.last
    (pageReadRequest r.readEnv pageSize r.allocReply.hndl r.index) rfl hl r.index_lt_npages
  rw [read, rmpRead_page r.reading pageSize r.allocReply.hndl r.index r.read_connected hlt,
    reading, hread]
  calc r.readEnv.fromData (r.last.space.memcpyFrom
        (Server.addrWithOffset a (UInt32.ofNat pageSize) (UInt32.ofNat r.index))) j
      = r.readEnv.fromData r.writeRequest.data j := by rw [hpage]
    _ = r.writeRequest.data ⟨j, hj⟩ := dif_pos hj
    _ = r.page j := if_pos hlt

lemma copies_inside_iff :
    (∀ len ∈ r.writing.copies r.writeEnv r.write ++ r.reading.copies r.readEnv r.read,
      len ≤ sizeofData) ↔ pageSize ≤ 4096 := by
  rw [write, read, rmpWrite_copies _ _ _ _ r.write_connected,
    rmpRead_copies _ _ _ _ r.read_connected]
  simp [sizeofData]

end RoundTrip

/-- For every page size a page survives the round trip only if the page size is that of the
array `data`, and at this size it does, given that all requests carry the page size, the handle is
not handed out a second time and writes in between are to regions whose length fits into a `u32`. -/
theorem page_survives_iff (pageSize : Nat) (hps : ∃ k, 12 ≤ k ∧ pageSize = 2 ^ k)
    (r : RoundTrip pageSize) :
    (r.Survives → pageSize = 4096) ∧ (r.Regular → (r.Survives ↔ pageSize = 4096)) := by
  have hle : 4096 ≤ pageSize := by
    obtain ⟨k, hk, rfl⟩ := hps
    exact Nat.pow_le_pow_right (show 0 < 2 by decide) hk
  have honly : r.Survives → pageSize = 4096 :=
    fun hs => Nat.le_antisymm (r.copies_inside_iff.mp hs.2) hle
  refine ⟨honly, fun hr => ⟨honly, ?_⟩⟩
  intro hp
  constructor
  · intro j hj
    exact r.first_bytes_survive hle hr (Nat.lt_of_lt_of_eq hj hp)
  · exact r.copies_inside_iff.mpr (Nat.le_of_eq hp)

/-- One page of ones is allocated at address 4096, written and read back at once; zeros follow
`data` in the memory of the reply. -/
def pageOfOnes (pageSize : Nat) (hlt : pageSize < 2 ^ 32) : RoundTrip pageSize :=
  let env : TransferEnv := ⟨true, ⟨0, 0, 0, 0, 0, zeroPage, 0⟩, fun _ => 0, ⟨some 4096, true⟩⟩
  let request := PageTransfer.allocRequest pageSize 1 env.packetObject
  let answer := (Host.fresh fun _ => 0).handle env.serverOs request
  { mem := fun _ => 0
    before := []
    start := Host.fresh fun _ => 0
    before_run := Run.nil
    npages := 1
    npages_lt := by simpa using hlt
    sendPkt := env.packetObject
    allocOs := env.serverOs
    allocReply := answer.1
    allocated := answer.2
    alloc_step := ⟨fun _ => fresh_mmapAnswer _ (UInt32.toNat_lt _), rfl⟩
    alloc_granted := rfl
    between := []
    ready := answer.2
    between_run := Run.nil
    between_keeps := by simp
    index := 0
    index_lt := by decide
    page := fun _ => 1
    writeEnv := env
    write_connected := rfl
    after := []
    last := _
    after_run := Run.nil
    after_keeps := by simp
    buffer := fun _ => 0
    readEnv := env
    read_connected := rfl }

lemma pageOfOnes_regular (pageSize : Nat) (hlt : pageSize < 2 ^ 32) :
    (pageOfOnes pageSize hlt).Regular := by
  constructor <;> simp [pageOfOnes]

theorem page_of_ones_survives : (pageOfOnes 4096 (by decide)).Survives := by
  have hiff := page_survives_iff 4096 ⟨12, by decide, by decide⟩ (pageOfOnes 4096 (by decide))
  exact (hiff.2 (pageOfOnes_regular 4096 _)).mpr rfl

/-- On a system with pages of 16384 bytes the copies leave `data`, and the byte that comes back
behind the first 4096 is the one that follows `data`. -/
theorem page_of_ones_lost :
    (∃ k, 12 ≤ k ∧ 16384 = 2 ^ k) ∧ (pageOfOnes 16384 (by decide)).Regular ∧
      ¬(pageOfOnes 16384 (by decide)).Survives ∧
      ((pageOfOnes 16384 (by decide)).reading.execute (pageOfOnes 16384 (by decide)).readEnv
        (pageOfOnes 16384 (by decide)).read).page 4096 ≠ (pageOfOnes 16384 (by decide)).page 4096 := by
  refine ⟨⟨14, by decide, by decide⟩, pageOfOnes_regular 16384 _, ?_, ?_⟩
  · intro hs
    have hle := (pageOfOnes 16384 (by decide)).copies_inside_iff.mp hs.2
    exact absurd hle (by decide)
  · have hpage := rmpRead_page (pageOfOnes 16384 (by decide)).reading 16384
      (pageOfOnes 16384 (by decide)).allocReply.hndl 0 (pageOfOnes 16384 (by decide)).read_connected
      (show 4096 < 16384 by decide)
    intro heq
    have hbyte : (0 : UInt8) = 1 := hpage.symm.trans heq
    exact absurd hbyte (by decide)

end RemoteMemoryPool.Proofs
