import RemoteMemoryPool.Lib.Numbering
import RemoteMemoryPool.Proofs.ServerSpec

/-!
# Handles handed out by the server

`get_new_handle` numbers the successful allocations modulo `2 ^ 32`. A handle is a key of
`addr_map` exactly when it is in use in the sense of `Numbering`, so the handle of a new
allocation is a live one exactly when the allocation `2 ^ 32` before it has not been freed.
-/

namespace RemoteMemoryPool.Proofs

open Interaction Transition Numbering

/-- The call is an allocation the kernel grants. -/
def Granted (x : Host × Call) : Prop :=
  x.2.packet.action = 0 ∧ (x.2.packet.npages * x.2.packet.size).toNat ≠ 0 ∧
    x.2.os.mmapAnswer.isSome = true

instance : DecidablePred Granted := fun _ => inferInstanceAs (Decidable (_ ∧ _ ∧ _))

def Frees (x : Host × Call) (v : Nat) : Prop :=
  x.2.packet.action = 3 ∧ x.2.packet.hndl = (v : Int) ∧
    ∃ a n, Live x.1.server x.2.packet.hndl a n ∧
      (x.1.space.munmap a (n * x.2.packet.size).toNat x.2.os.munmapAnswer).1 = true

/-- The number of successful allocations among the calls. -/
abbrev allocations : List (Host × Call) → Nat := taken Granted

abbrev FreedSince : List (Host × Call) → Nat → Prop := ReleasedSince Granted Frees (2 ^ 32)

/-- The server numbers its handles as `Numbering` says. -/
structure HandlesTracked (h : List (Host × Call)) (w : Host) : Prop where
  inStep : InStep w.server
  count : w.server.handleCount.toNat = allocations h % 2 ^ 32
  keys : ∀ k : Handle, w.server.addrMap.find k ≠ none ↔
    ∃ v : Nat, k = (v : Int) ∧ InUse Granted Frees (2 ^ 32) h v

lemma fresh_handlesTracked (mem : Nat → UInt8) : HandlesTracked [] (Host.fresh mem) where
  inStep := fresh_inStep mem
  count := by simp [Host.fresh, taken]
  keys k := by simp [Host.fresh, not_inUse_nil]

section Steps

variable {h : List (Host × Call)} {w : Host} {c : Call}

lemma HandlesTracked.alloced (hn : HandlesTracked h w) (hg : Granted (w, c)) {npages : UInt32} {a : Nat} :
    ∀ k : Handle, (Server.alloced w.server npages a).addrMap.find k ≠ none ↔
      ∃ v : Nat, k = (v : Int) ∧ InUse Granted Frees (2 ^ 32) (h ++ [(w, c)]) v := by
  intro k
  have hno : ∀ v, ¬Frees (w, c) v := by
    intro v hf
    have h3 : c.packet.action = 3 := hf.1
    rw [hg.1] at h3
    exact absurd h3 (by decide)
  have hcount : handleOfCount w.server.handleCount = ((allocations h % 2 ^ 32 : Nat) : Int) := by
    rw [← hn.count, handleOfCount]
  simp only [Server.alloced, UnorderedMap.find_set, inUse_snoc_take hg hno, hcount]
  split
  · next hk => simpa using ⟨_, hk, Or.inl rfl⟩
  · next hk =>
    rw [hn.keys k]
    constructor
    · rintro ⟨v, hv, hu⟩
      exact ⟨v, hv, Or.inr hu⟩
    · rintro ⟨v, hv, rfl | hu⟩
      · exact absurd hv hk
      · exact ⟨v, hv, hu⟩

lemma HandlesTracked.freed (hn : HandlesTracked h w) (h3 : c.packet.action = 3) {a : Nat} {n : UInt32}
    (hl : Live w.server c.packet.hndl a n)
    (hm : (w.space.munmap a (n * c.packet.size).toNat c.os.munmapAnswer).1 = true) :
    ∀ k : Handle, (Server.freed w.server c.packet.hndl).addrMap.find k ≠ none ↔
      ∃ v : Nat, k = (v : Int) ∧ InUse Granted Frees (2 ^ 32) (h ++ [(w, c)]) v := by
  intro k
  have hng : ¬Granted (w, c) := by
    rintro ⟨h0, -⟩
    rw [h3] at h0
    exact absurd h0 (by decide)
  have hf (v : Nat) : Frees (w, c) v ↔ c.packet.hndl = (v : Int) :=
    ⟨fun hf => hf.2.1, fun hv => ⟨h3, hv, a, n, hl, hm⟩⟩
  simp only [Server.freed, UnorderedMap.find_erase, inUse_snoc_release hng, hf]
  split
  · next hk =>
    constructor
    · intro hno
      exact absurd rfl hno
    · rintro ⟨v, hv, hne, -⟩
      exact absurd (hk.symm.trans hv) hne
  · next hk =>
    rw [hn.keys k]
    constructor
    · rintro ⟨v, rfl, hu⟩
      exact ⟨v, rfl, fun hv => hk hv.symm, hu⟩
    · rintro ⟨v, hv, -, hu⟩
      exact ⟨v, hv, hu⟩

lemma HandlesTracked.unchanged {w' : Host} (hn : HandlesTracked h w) (hg : ¬Granted (w, c))
    (hf : ∀ v, ¬Frees (w, c) v) (hw : w'.server = w.server) :
    HandlesTracked (h ++ [(w, c)]) w' where
  inStep := hw ▸ hn.inStep
  count := by rw [hw, hn.count, allocations, taken_snoc, if_neg hg, Nat.add_zero]
  keys k := by
    simp only [hw, inUse_snoc_release hg, hf, not_false_eq_true, true_and]
    exact hn.keys k

theorem HandlesTracked.step {w' : Host} (hn : HandlesTracked h w) (hs : Host.Step w c w') :
    HandlesTracked (h ++ [(w, c)]) w' := by
  have ho := step_outcome hn.inStep hs
  have hi := step_inStep hn.inStep hs
  -- an action other than 0 allocates nothing, one other than 3 frees nothing
  have hg {i : UInt32} (ha : c.packet.action = i) (h0 : i ≠ 0) : ¬Granted (w, c) :=
    fun hg => h0 (ha.symm.trans hg.1)
  have hf {i : UInt32} (ha : c.packet.action = i) (h3 : i ≠ 3) (v : Nat) : ¬Frees (w, c) v :=
    fun hf => h3 (ha.symm.trans hf.1)
  obtain ⟨os, p, r⟩ := c
  dsimp only at ho hg hf
  cases ho with
  | allocFailed ha hm =>
    refine hn.unchanged ?_ (hf ha (by decide)) rfl
    rintro ⟨-, hlen, hsome⟩
    obtain ⟨a, hans⟩ := Option.isSome_iff_exists.mp hsome
    dsimp only at hlen hans
    rw [hans, w.space.mmap_some hlen] at hm
    simp at hm
  | alloced ha a hlen hm =>
    have hgr : Granted (w, ⟨os, p, { p with hndl := handleOfCount w.server.handleCount }⟩) :=
      ⟨ha, hlen, by simp [hm]⟩
    refine ⟨hi, ?_, hn.alloced hgr⟩
    rw [allocations, taken_snoc, if_pos hgr]
    rw [Server.alloced, UInt32.toNat_add, UInt32.toNat_one, hn.count, Nat.mod_add_mod]
  | readInvalid ha hd => exact hn.unchanged (hg ha (by decide)) (hf ha (by decide)) rfl
  | readFailed ha a n hl ho => exact hn.unchanged (hg ha (by decide)) (hf ha (by decide)) rfl
  | read ha a n hl ho => exact hn.unchanged (hg ha (by decide)) (hf ha (by decide)) rfl
  | writeInvalid ha hd => exact hn.unchanged (hg ha (by decide)) (hf ha (by decide)) rfl
  | writeFailed ha a n hl ho => exact hn.unchanged (hg ha (by decide)) (hf ha (by decide)) rfl
  | written ha a n hl ho => exact hn.unchanged (hg ha (by decide)) (hf ha (by decide)) rfl
  | freeInvalid ha hd =>
    refine hn.unchanged (hg ha (by decide)) ?_ rfl
    rintro v ⟨-, -, a, n, hl, -⟩
    exact absurd (hl.1.symm.trans hd) (by simp)
  | freeFailed ha a n hl hm =>
    refine hn.unchanged (hg ha (by decide)) ?_ rfl
    rintro v ⟨-, -, a', n', hl', hm'⟩
    obtain ⟨rfl, rfl⟩ := hl.unique hl'
    exact absurd (hm.symm.trans hm') (by decide)
  | freed ha a n hl hm =>
    have hkeys := hn.freed (c := ⟨os, p, p⟩) ha hl hm
    refine ⟨hi, ?_, hkeys⟩
    rw [allocations, taken_snoc, if_neg (hg ha (by decide)), Nat.add_zero]
    exact hn.count
  | unknown h0 h1 h2 h3 =>
    exact hn.unchanged (hg (i := p.action) rfl h0) (hf (i := p.action) rfl h3) rfl

end Steps

/-- Every run numbers the handles. -/
theorem run_handlesTracked {mem : Nat → UInt8} {tr : List (Host × Call)} {w : Host}
    (h : Run Host.Step (Host.fresh mem) tr w) : HandlesTracked tr w := by
  induction h with
  | nil => exact fresh_handlesTracked mem
  | snoc _ hs ih => exact ih.step hs

/-- If the call is a successful `alloc`, the handle it returns is not a key of `addr_map`. -/
def HandleNew (x : Host × Call) : Prop :=
  x.2.packet.action = 0 →
    ((Server.alloc x.2.packet.npages x.2.packet.size).run (ServerOp.exec x.2.os) x.1).1 ≠ -1 →
    ¬x.1.server.addrMap.Contains x.2.reply.hndl

lemma granted_iff (x : Host × Call) : Granted x ↔ x.2.packet.action = 0 ∧
    ((Server.alloc x.2.packet.npages x.2.packet.size).run (ServerOp.exec x.2.os) x.1).1 ≠ -1 := by
  rw [alloc_ne_neg_one_iff, Granted, Option.isSome_iff_exists]

lemma HandlesTracked.handleNew_iff {h : List (Host × Call)} {w w' : Host} {c : Call}
    (hn : HandlesTracked h w) (hs : Host.Step w c w') :
    HandleNew (w, c) ↔
      (Granted (w, c) → 2 ^ 32 ≤ allocations h → FreedSince h (allocations h - 2 ^ 32)) := by
  have hnew : HandleNew (w, c) ↔ (Granted (w, c) → ¬w.server.addrMap.Contains c.reply.hndl) := by
    rw [granted_iff, and_imp, HandleNew]
  rw [hnew]
  apply imp_congr_right
  intro hg
  obtain ⟨a, ha⟩ := Option.isSome_iff_exists.mp hg.2.2
  have hreply : c.reply.hndl = ((allocations h % 2 ^ 32 : Nat) : Int) := by
    have hh := handle_alloc_granted c.os w c.packet hg.1 hg.2.1 ha
    rw [hs.2] at hh
    rw [congrArg (fun x => x.1.hndl) hh, ← hn.count, handleOfCount]
  rw [← not_inUse_next_iff (by decide : 0 < 2 ^ 32), hreply]
  apply not_congr
  rw [UnorderedMap.Contains, hn.keys]
  constructor
  · rintro ⟨v, hv, hu⟩
    rwa [Int.ofNat.inj hv]
  · intro hu
    exact ⟨_, rfl, hu⟩

lemma HandleNew.entry_stays {w w' : Host} {c : Call} (hnew : HandleNew (w, c))
    (hi : InStep w.server) (hs : Host.Step w c w') (h0 : c.packet.action = 0) {k : Handle} {a : Nat}
    (hk : w.server.addrMap.find k = some a) : w'.server.addrMap.find k = some a := by
  by_cases hg : Granted (w, c)
  · obtain ⟨b, hb⟩ := Option.isSome_iff_exists.mp hg.2.2
    have hh := handle_alloc_granted c.os w c.packet h0 hg.2.1 hb
    rw [hs.2, Prod.mk.injEq] at hh
    have hfresh := hnew h0 ((granted_iff (w, c)).mp hg).2
    rw [hh.1] at hfresh
    rw [hh.2, Server.alloced, UnorderedMap.find_set, if_neg]
    · exact hk
    · rintro rfl
      exact hfresh (by simp [UnorderedMap.Contains, hk])
  · have ho := step_outcome hi hs
    obtain ⟨os, p, r⟩ := c
    dsimp only at ho h0
    cases ho with
    | alloced ha b hlen hm => exact absurd ⟨ha, hlen, by simp [hm]⟩ hg
    | freed ha => exact absurd (h0.symm.trans ha) (by decide)
    | _ => exact hk

/-- In a run, every successful `alloc` returns a handle that is not a key of `addr_map` exactly
when every allocation after the first `2 ^ 32` finds that the one `2 ^ 32` before it has been
freed. Then no entry is overwritten, and of two allocations with one handle the earlier has been
freed. -/
theorem new_handles_iff {mem : Nat → UInt8} {tr : List (Host × Call)} {w : Host}
    (h : Run Host.Step (Host.fresh mem) tr w) :
    ((∀ x ∈ tr, HandleNew x) ↔
      ∀ g x, g ++ [x] <+: tr → Granted x → 2 ^ 32 ≤ allocations g →
        FreedSince g (allocations g - 2 ^ 32)) ∧
    ((∀ x ∈ tr, HandleNew x) →
      (∀ x ∈ tr, x.2.packet.action = 0 → ∀ k a, x.1.server.addrMap.find k = some a →
        (x.1.handle x.2.os x.2.packet).2.server.addrMap.find k = some a) ∧
      ∀ i j, i < j → j < allocations tr → i % 2 ^ 32 = j % 2 ^ 32 → FreedSince tr i) := by
  have hbefore := h.before
  have hiff : (∀ x ∈ tr, HandleNew x) ↔ ∀ g x, g ++ [x] <+: tr → HandleNew x := by
    constructor
    · intro hall g x hg
      exact hall x (hg.subset (by simp))
    · intro hall x hx
      obtain ⟨g, u, hg, -⟩ := h.reached x hx
      exact hall g x hg
  have hstep (g : List (Host × Call)) (x : Host × Call) (hg : g ++ [x] <+: tr) :
      HandleNew x ↔
        (Granted x → 2 ^ 32 ≤ allocations g → FreedSince g (allocations g - 2 ^ 32)) := by
    obtain ⟨hrun, u, hs⟩ := hbefore g x hg
    exact (run_handlesTracked hrun).handleNew_iff hs
  have hruns : (∀ x ∈ tr, HandleNew x) ↔
      ∀ g x, g ++ [x] <+: tr → Granted x → 2 ^ 32 ≤ allocations g →
        FreedSince g (allocations g - 2 ^ 32) := by
    rw [hiff]
    exact forall₃_congr hstep
  refine ⟨hruns, fun hnew => ⟨?_, ?_⟩⟩
  · intro x hx h0 k a hk
    obtain ⟨g, u, -, hrun, hs⟩ := h.reached x hx
    rw [hs.2]
    exact (hnew x hx).entry_stays (run_inStep hrun) hs h0 hk
  intro i j hij hj hmod
  refine released_of_same_name (by decide) ?_ hij hj hmod
  intro g x hg hx
  rw [not_inUse_next_iff (by decide)]
  exact hruns.mp hnew g x hg hx

/-- One page with handle 0 at 4096; `k` further allocations have been freed. -/
def heldHost (k : Nat) : Host where
  server := ⟨UInt32.ofNat (k + 1), UnorderedMap.empty.set 0 4096, UnorderedMap.empty.set 0 1⟩
  space := ⟨inRegion 4096 4096, fun _ => 0⟩

/-- A request for one page, or with action 3 for freeing it. -/
def pageRequest (action : UInt32) (hndl : Handle) : Packet :=
  { hndl := hndl, npages := 1, size := 4096, offset := 0, action := action, data := zeroPage, error := 0 }

lemma pageRequest_length (action : UInt32) (hndl : Handle) :
    ((pageRequest action hndl).npages * (pageRequest action hndl).size).toNat = 4096 := by
  change ((1 : UInt32) * 4096).toNat = 4096
  decide

lemma grant_page {w : Host} {a : Nat} (ha : w.space.MmapAnswer 4096 (some a)) :
    Host.Step w
      ⟨⟨some a, true⟩, pageRequest 0 0, pageRequest 0 (handleOfCount w.server.handleCount)⟩
      ⟨Server.alloced w.server 1 a, fun x => inRegion a 4096 x || w.space.mapped x,
        fun x => if inRegion a 4096 x then 0 else w.space.mem x⟩ := by
  constructor
  · intro _
    rw [pageRequest_length]
    exact ha
  · dsimp only
    rw [handle_alloc_granted _ w _ rfl (pageRequest_length 0 0 ▸ by decide) rfl,
      pageRequest_length, AddressSpace.mmap_snd _ (by decide)]
    rfl

lemma fresh_step_heldHost : Host.Step (Host.fresh fun _ => 0)
    ⟨⟨some 4096, true⟩, pageRequest 0 0, pageRequest 0 0⟩ (heldHost 0) := by
  have hstep := grant_page (fresh_mmapAnswer (fun _ => 0) (by decide))
  simp only [Host.fresh, Bool.or_false, ite_self] at hstep
  exact hstep

lemma heldHost_apart {x : Nat} (hx : inRegion 8192 4096 x = true) : inRegion 4096 4096 x = false := by
  rw [Bool.eq_false_iff]
  intro hx'
  rw [inRegion_iff, show pageRound 4096 = 4096 by decide] at hx hx'
  omega

lemma heldHost_alloc (k : Nat) : Host.Step (heldHost k)
    ⟨⟨some 8192, true⟩, pageRequest 0 0, pageRequest 0 (handleOfCount (UInt32.ofNat (k + 1)))⟩
    ⟨Server.alloced (heldHost k).server 1 8192,
      fun x => inRegion 8192 4096 x || inRegion 4096 4096 x, fun _ => 0⟩ := by
  have hans : (heldHost k).space.MmapAnswer 4096 (some 8192) := by
    intro a ha
    obtain rfl : 8192 = a := Option.some.inj ha
    exact ⟨by decide, by decide, by decide, fun x hx => heldHost_apart hx⟩
  have hstep := grant_page hans
  simp only [heldHost, ite_self] at hstep
  exact hstep

lemma handleOfCount_ofNat {k : Nat} (hk : k < 2 ^ 32) : handleOfCount (UInt32.ofNat k) = (k : Int) := by
  rw [handleOfCount, UInt32.toNat_ofNat_of_lt' hk]

lemma heldHost_free {k : Nat} (hk : k + 1 < 2 ^ 32) : Host.Step
    ⟨Server.alloced (heldHost k).server 1 8192,
      fun x => inRegion 8192 4096 x || inRegion 4096 4096 x, fun _ => 0⟩
    ⟨⟨none, true⟩, pageRequest 3 (k + 1 : Nat), pageRequest 3 (k + 1 : Nat)⟩ (heldHost (k + 1)) := by
  have hh : handleOfCount (heldHost k).server.handleCount = ((k + 1 : Nat) : Int) :=
    handleOfCount_ofNat hk
  have hlive : Live (Server.alloced (heldHost k).server 1 8192) ((k + 1 : Nat) : Int) 8192 1 :=
    live_alloced.mpr (Or.inl ⟨hh.symm, rfl, rfl⟩)
  have hlen : ((1 : UInt32) * (pageRequest 3 (k + 1 : Nat)).size).toNat = 4096 := by rfl
  have hserver : Server.freed (Server.alloced (heldHost k).server 1 8192) ((k + 1 : Nat) : Int) =
      (heldHost (k + 1)).server := by
    have hmap {V : Type} (a b : V) : (((UnorderedMap.empty.set 0 a).set
        (handleOfCount (heldHost k).server.handleCount) b).erase ((k + 1 : Nat) : Int)) =
          UnorderedMap.empty.set 0 a := by
      rw [hh]
      apply UnorderedMap.erase_set_of_find_none
      rw [UnorderedMap.find_set, if_neg, UnorderedMap.find_empty]
      exact Int.ofNat_ne_zero.mpr k.succ_ne_zero
    have hcount : UInt32.ofNat (k + 1) + 1 = UInt32.ofNat (k + 1 + 1) := by
      rw [UInt32.ofNat_add (k + 1) 1]
      rfl
    simp only [Server.freed, Server.alloced]
    rw [show (heldHost k).server.addrMap = UnorderedMap.empty.set 0 4096 from rfl,
      show (heldHost k).server.hndlNPages = UnorderedMap.empty.set 0 1 from rfl, hmap, hmap,
      show (heldHost k).server.handleCount + 1 = UInt32.ofNat (k + 1 + 1) from hcount]
    rfl
  have hspace : (AddressSpace.munmap ⟨fun x => inRegion 8192 4096 x || inRegion 4096 4096 x,
      fun _ => 0⟩ 8192 4096 true).2 = (heldHost (k + 1)).space := by
    simp only [AddressSpace.munmap, heldHost]
    simp only [Nat.reduceMod, ne_eq, not_true_eq_false, Bool.true_eq_false, or_self, if_false,
      OfNat.ofNat_ne_zero, AddressSpace.mk.injEq, and_true]
    funext x
    cases hx : inRegion 8192 4096 x with
    | false => simp
    | true => simp [heldHost_apart hx]
  constructor
  · intro h0
    simp [pageRequest] at h0
  · dsimp only
    rw [handle_free_granted _ _ _ rfl hlive (by decide) (by rw [hlen]; rfl), hlen]
    exact Prod.ext rfl (congrArg₂ Host.mk hserver hspace)

/-- The server can allocate and free any number of pages below `2 ^ 32` beside handle 0. -/
lemma heldHost_run {k : Nat} (hk : k < 2 ^ 32) :
    ∃ tr, Run Host.Step (Host.fresh fun _ => 0) tr (heldHost k) := by
  induction k with
  | zero => exact ⟨_, Run.single fresh_step_heldHost⟩
  | succ k ih =>
    obtain ⟨tr, hrun⟩ := ih (by omega)
    exact ⟨_, (hrun.snoc (heldHost_alloc k)).snoc (heldHost_free hk)⟩

/-- While handle 0 is in use, handle 1 is given and freed, and the next one is new again. -/
theorem third_handle_new : HandleNew
    (heldHost 1, ⟨⟨some 8192, true⟩, pageRequest 0 0, pageRequest 0 (handleOfCount 2)⟩) := by
  have hrun := (((Run.single fresh_step_heldHost).snoc (heldHost_alloc 0)).snoc
    (heldHost_free (k := 0) (by decide))).snoc (heldHost_alloc 1)
  refine (new_handles_iff hrun).1.mpr ?_ _ (by simp)
  intro g x hg _ hle
  have hlen : g.length + 1 ≤ 4 := by simpa using hg.length_le
  have hcount : allocations g ≤ g.length := List.countP_le_length
  omega

/-- The allocation numbered `2 ^ 32` returns handle 0, which is still in use. -/
theorem handle_zero_reused :
    ¬∀ (mem : Nat → UInt8) (tr : List (Host × Call)) (w : Host),
      Run Host.Step (Host.fresh mem) tr w → ∀ x ∈ tr, HandleNew x := by
  intro hall
  obtain ⟨tr, hrun⟩ := heldHost_run (k := 2 ^ 32 - 1) (by decide)
  have hnew := hall _ _ _ (hrun.snoc (heldHost_alloc (2 ^ 32 - 1))) _
    (List.mem_append_right tr (List.mem_singleton.mpr rfl)) rfl
  have hcount : handleOfCount (UInt32.ofNat (2 ^ 32 - 1 + 1)) = 0 := by decide
  rw [alloc_ne_neg_one_iff] at hnew
  apply hnew ⟨by decide, 8192, rfl⟩
  dsimp only [pageRequest]
  rw [hcount]
  decide

end RemoteMemoryPool.Proofs
