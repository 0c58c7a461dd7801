import RemoteMemoryPool.Proofs.ServerSpec
import Mathlib.Data.List.Induction

/-!
# The server as a page store

`PageStore` is what the server is for: a map from handles to arrays of pages. Packets that
carry the page size act on it as `PageStore.Step` says, given which `mmap` and `munmap`
calls the kernel grants. `Refines` ties a server process, with its two hash maps and raw
memory reached by `addr + size * offset`, to the store it represents.
-/

namespace RemoteMemoryPool.Proofs

open Interaction Transition

/-- Pages held for every handle that is in use. -/
abbrev PageStore := Handle → Option (List Page)

/-- What a call answers and how it changes the store. -/
inductive PageStore.Step (st : PageStore) (c : Call) : PageStore → Prop
  | allocFailed (ha : c.packet.action = 0) (hm : c.packet.npages = 0 ∨ c.os.mmapAnswer = none)
      (hr : c.reply = { c.packet with error := allocFailed }) : Step st c st
  | alloc (ha : c.packet.action = 0) (hn : c.packet.npages ≠ 0) (hm : c.os.mmapAnswer ≠ none)
      (h : Handle) (hh : st h = none) (hr : c.reply = { c.packet with hndl := h }) :
      Step st c (Function.update st h (some (List.replicate c.packet.npages.toNat zeroPage)))
  | readInvalid (ha : c.packet.action = 1) (hd : st c.packet.hndl = none)
      (hr : c.reply = { c.packet with error := invalidHandle }) : Step st c st
  | readFailed (ha : c.packet.action = 1) (pages : List Page) (hl : st c.packet.hndl = some pages)
      (ho : pages.length ≤ c.packet.offset.toNat)
      (hr : c.reply = { c.packet with error := readFailed }) : Step st c st
  | read (ha : c.packet.action = 1) (pages : List Page) (hl : st c.packet.hndl = some pages)
      (d : Page) (ho : pages[c.packet.offset.toNat]? = some d)
      (hr : c.reply = { c.packet with data := d }) : Step st c st
  | writeInvalid (ha : c.packet.action = 2) (hd : st c.packet.hndl = none)
      (hr : c.reply = { c.packet with error := invalidHandle }) : Step st c st
  | writeFailed (ha : c.packet.action = 2) (pages : List Page) (hl : st c.packet.hndl = some pages)
      (ho : pages.length ≤ c.packet.offset.toNat)
      (hr : c.reply = { c.packet with error := writeFailed }) : Step st c st
  | write (ha : c.packet.action = 2) (pages : List Page) (hl : st c.packet.hndl = some pages)
      (ho : c.packet.offset.toNat < pages.length) (hr : c.reply = c.packet) :
      Step st c (Function.update st c.packet.hndl
        (some (pages.set c.packet.offset.toNat c.packet.data)))
  | freeInvalid (ha : c.packet.action = 3) (hd : st c.packet.hndl = none)
      (hr : c.reply = { c.packet with error := invalidHandle }) : Step st c st
  | freeFailed (ha : c.packet.action = 3) (pages : List Page) (hl : st c.packet.hndl = some pages)
      (hm : c.os.munmapAnswer = false)
      (hr : c.reply = { c.packet with error := freeFailed }) : Step st c st
  | free (ha : c.packet.action = 3) (pages : List Page) (hl : st c.packet.hndl = some pages)
      (hm : c.os.munmapAnswer = true) (hr : c.reply = c.packet) :
      Step st c (Function.update st c.packet.hndl none)
  | unknown (h0 : c.packet.action ≠ 0) (h1 : c.packet.action ≠ 1) (h2 : c.packet.action ≠ 2)
      (h3 : c.packet.action ≠ 3) (hr : c.reply = { c.packet with error := unknownAction }) :
      Step st c st

/-- The recorded region of a handle holds the pages `pages`. -/
structure Holds (v : AddressSpace) (a : Nat) (n : UInt32) (pages : List Page) : Prop where
  length : pages.length = n.toNat
  small : n.toNat < 2 ^ 20
  aligned : a % 4096 = 0
  bound : a + 4096 * n.toNat ≤ 2 ^ 64
  mapped : ∀ x, a ≤ x → x < a + 4096 * n.toNat → v.mapped x = true
  contents : ∀ i (hi : i < pages.length), v.memcpyFrom (a + 4096 * i) = pages[i]

/-- The server process represents the store. -/
structure Refines (w : Host) (st : PageStore) : Prop where
  inStep : InStep w.server
  dead : ∀ h, w.server.addrMap.find h = none → st h = none
  live : ∀ h a n, Live w.server h a n → ∃ pages, st h = some pages ∧ Holds w.space a n pages
  below : ∀ h a, w.server.addrMap.find h = some a →
    ∃ k, k < w.server.handleCount.toNat ∧ h = Int.ofNat k
  disjoint : ∀ h h' a a' n n', Live w.server h a n → Live w.server h' a' n' → h ≠ h' →
    a + 4096 * n.toNat ≤ a' ∨ a' + 4096 * n'.toNat ≤ a

lemma pageRound_mul (k : Nat) : pageRound (4096 * k) = 4096 * k := by
  unfold pageRound
  omega

lemma inRegion_mul (a k x : Nat) : inRegion a (4096 * k) x = true ↔ a ≤ x ∧ x < a + 4096 * k := by
  simp [inRegion, pageRound_mul]

lemma toNat_mul_4096 {n : UInt32} (hn : n.toNat < 2 ^ 20) : (n * 4096).toNat = 4096 * n.toNat := by
  have hlt : n.toNat * 4096 < 2 ^ 32 := by omega
  exact (toNat_mul_of_lt (y := 4096) hlt).trans (Nat.mul_comm _ _)

lemma addrWithOffset_page {a : Nat} {n i : UInt32} (hn : n.toNat < 2 ^ 20) (hi : i < n)
    (hb : a + 4096 * n.toNat ≤ 2 ^ 64) : Server.addrWithOffset a 4096 i = a + 4096 * i.toNat := by
  have hlt : i.toNat < n.toNat := UInt32.lt_iff_toNat_lt.mp hi
  have hoff : i.toNat * 4096 < 2 ^ 32 := by omega
  have haddr : a + i.toNat * 4096 < 2 ^ 64 := by omega
  rw [Nat.mul_comm]
  exact addrWithOffset_of_lt 4096 hoff haddr

lemma memcpyFrom_memcpyTo_of_disjoint (v : AddressSpace) (a b : Nat) (d : Page)
    (h : a + 4096 ≤ b ∨ b + 4096 ≤ a) : (v.memcpyTo a d).memcpyFrom b = v.memcpyFrom b := by
  funext i
  have hi := i.isLt
  have hne : ¬(a ≤ b + i ∧ b + i - a < 4096) := by omega
  simp only [AddressSpace.memcpyFrom, AddressSpace.memcpyTo, hne, dite_false]

@[simp] lemma memcpyFrom_memcpyTo_self (v : AddressSpace) (a : Nat) (d : Page) :
    (v.memcpyTo a d).memcpyFrom a = d := by
  funext i
  have hi := i.isLt
  have hin : a ≤ a + i ∧ a + i - a < 4096 := by omega
  simp only [AddressSpace.memcpyFrom, AddressSpace.memcpyTo, hin, and_self, dite_true]
  congr 1
  exact Fin.ext (by simp)

section Memory

variable {v : AddressSpace} {a n : Nat}

lemma Holds.mmap {b k : Nat} {n : UInt32} {pages : List Page} (h : Holds v a n pages)
    (hk : 4096 * k ≠ 0) (hd : b + 4096 * k ≤ a ∨ a + 4096 * n.toNat ≤ b) :
    Holds (v.mmap (4096 * k) (some b)).2 a n pages := by
  have hout : ∀ x, a ≤ x → x < a + 4096 * n.toNat → inRegion b (4096 * k) x = false := by
    intro x h1 h2
    have hx := inRegion_mul b k x
    by_contra hc
    have hc := hx.mp (by simpa using hc)
    omega
  refine ⟨h.length, h.small, h.aligned, h.bound, ?_, ?_⟩
  · intro x h1 h2
    rw [v.mmap_snd hk]
    simp [h.mapped x h1 h2]
  · intro i hi
    rw [← h.contents i hi, v.mmap_snd hk]
    funext j
    have hj := j.isLt
    have hl := h.length
    simp [AddressSpace.memcpyFrom, hout (a + 4096 * i + j) (by omega) (by omega)]

lemma holds_mmap_fresh {b : Nat} {n : UInt32} (hn : n ≠ 0) (hs : n.toNat < 2 ^ 20)
    (hal : b % 4096 = 0) (hb : b + 4096 * n.toNat ≤ 2 ^ 64) :
    Holds (v.mmap (4096 * n.toNat) (some b)).2 b n (List.replicate n.toNat zeroPage) := by
  have hk : 4096 * n.toNat ≠ 0 := by
    have := mt UInt32.toNat_inj.mp hn
    simp only [UInt32.toNat_zero] at this
    omega
  refine ⟨by simp, hs, hal, hb, ?_, ?_⟩
  · intro x h1 h2
    rw [v.mmap_snd hk]
    simp [(inRegion_mul b n.toNat x).mpr ⟨h1, h2⟩]
  · intro i hi
    rw [List.length_replicate] at hi
    rw [List.getElem_replicate, v.mmap_snd hk]
    funext j
    have hj := j.isLt
    have hin := (inRegion_mul b n.toNat (b + 4096 * i + j)).mpr ⟨by omega, by omega⟩
    simp [AddressSpace.memcpyFrom, hin, zeroPage]

lemma Holds.memcpyTo_other {b : Nat} {n : UInt32} {pages : List Page} (h : Holds v a n pages)
    (d : Page) (hd : b + 4096 ≤ a ∨ a + 4096 * n.toNat ≤ b) :
    Holds (v.memcpyTo b d) a n pages := by
  refine ⟨h.length, h.small, h.aligned, h.bound, h.mapped, ?_⟩
  intro i hi
  have hl := h.length
  rw [memcpyFrom_memcpyTo_of_disjoint _ _ _ _ (by omega), h.contents i hi]

lemma Holds.memcpyTo_page {n : UInt32} {pages : List Page} (h : Holds v a n pages) (d : Page)
    (i : Nat) : Holds (v.memcpyTo (a + 4096 * i) d) a n (pages.set i d) := by
  refine ⟨by simp [h.length], h.small, h.aligned, h.bound, h.mapped, ?_⟩
  intro j hj
  rw [List.length_set] at hj
  by_cases hij : i = j
  · subst hij
    simp
  · rw [memcpyFrom_memcpyTo_of_disjoint _ _ _ _ (by omega), h.contents j hj,
      List.getElem_set_ne hij]

lemma Holds.munmap {b k : Nat} {n : UInt32} {pages : List Page} (h : Holds v a n pages)
    (hd : b + 4096 * k ≤ a ∨ a + 4096 * n.toNat ≤ b) (answer : Bool) :
    Holds (v.munmap b (4096 * k) answer).2 a n pages := by
  unfold AddressSpace.munmap
  split
  · exact h
  · refine ⟨h.length, h.small, h.aligned, h.bound, ?_, h.contents⟩
    intro x h1 h2
    have hout : inRegion b (4096 * k) x = false := by
      by_contra hc
      have hc := (inRegion_mul b k x).mp (by simpa using hc)
      omega
    simp [hout, h.mapped x h1 h2]

end Memory

/-! ### The simulation -/

section Simulation

variable {w : Host} {st : PageStore}

lemma fresh_refines (mem : Nat → UInt8) : Refines (Host.fresh mem) (fun _ => none) where
  inStep := fresh_inStep mem
  dead := by simp
  live := by simp [Live, Host.fresh]
  below := by simp [Host.fresh]
  disjoint := by simp [Live, Host.fresh]

lemma Refines.live_of_some (hR : Refines w st) {h : Handle} {pages : List Page}
    (hp : st h = some pages) : ∃ a n, Live w.server h a n := by
  apply hR.inStep.live
  intro hn
  rw [hR.dead h hn] at hp
  simp at hp

lemma mmap_disjoint {v : AddressSpace} {b k a : Nat} {n : UInt32} {pages : List Page}
    (hb : v.MmapAnswer (4096 * k) (some b)) (h : Holds v a n pages) (hn : n ≠ 0) (hk : k ≠ 0) :
    b + 4096 * k ≤ a ∨ a + 4096 * n.toNat ≤ b := by
  obtain ⟨-, -, -, hfree⟩ := hb b rfl
  have hn0 : 0 < n.toNat := Nat.pos_of_ne_zero (fun h0 => hn (UInt32.toNat_inj.mp h0))
  by_contra hc
  -- the two ranges share the larger of their start addresses
  have hmem : a ≤ max a b ∧ max a b < a + 4096 * n.toNat := by omega
  have hin : inRegion b (4096 * k) (max a b) = true := (inRegion_mul b k _).mpr (by omega)
  exact absurd (hfree _ hin) (by simp [h.mapped _ hmem.1 hmem.2])

lemma Refines.alloced (hR : Refines w st) {npages : UInt32} {b : Nat} (hn : npages ≠ 0)
    (hs : npages.toNat < 2 ^ 20) (hb : w.space.MmapAnswer (4096 * npages.toNat) (some b))
    (hc : w.server.handleCount.toNat + 1 < 2 ^ 32) :
    Refines ⟨Server.alloced w.server npages b, (w.space.mmap (4096 * npages.toNat) (some b)).2⟩
      (Function.update st (handleOfCount w.server.handleCount)
        (some (List.replicate npages.toNat zeroPage))) := by
  have hn0 : npages.toNat ≠ 0 := fun h0 => hn (UInt32.toNat_inj.mp h0)
  obtain ⟨hne, hal, hbd, -⟩ := hb b rfl
  rw [pageRound_mul] at hbd
  have hold : ∀ h a n, Live w.server h a n → b + 4096 * npages.toNat ≤ a ∨ a + 4096 * n.toNat ≤ b := by
    intro h a n hl
    obtain ⟨pages, -, hh⟩ := hR.live h a n hl
    exact mmap_disjoint hb hh (hR.inStep.npages_ne h n hl.2) hn0
  refine ⟨hR.inStep.alloced hn hne, ?_, ?_, HandlesBelow.alloced hR.below hc npages b, ?_⟩
  · intro h hd
    simp only [Server.alloced, UnorderedMap.find_set] at hd
    split at hd
    · simp at hd
    · next hh => rw [Function.update_of_ne hh, hR.dead h hd]
  · intro h a n hl
    rcases live_alloced.mp hl with ⟨rfl, rfl, rfl⟩ | ⟨hh, hl⟩
    · exact ⟨_, Function.update_self _ _ _, holds_mmap_fresh hn hs hal hbd⟩
    · obtain ⟨pages, hp, hh'⟩ := hR.live h a n hl
      exact ⟨pages, by rw [Function.update_of_ne hh, hp], hh'.mmap (by omega) (hold h a n hl)⟩
  · intro h h' a a' n n' hl hl' hhh
    rcases live_alloced.mp hl with ⟨rfl, rfl, rfl⟩ | ⟨hh, hl⟩
    · rcases live_alloced.mp hl' with ⟨rfl, rfl, rfl⟩ | ⟨hh', hl'⟩
      · exact absurd rfl hhh
      · exact hold h' a' n' hl'
    · rcases live_alloced.mp hl' with ⟨rfl, rfl, rfl⟩ | ⟨hh', hl'⟩
      · exact (hold h a n hl).symm
      · exact hR.disjoint h h' a a' n n' hl hl' hhh

lemma Refines.written (hR : Refines w st) {h : Handle} {a : Nat} {n i : UInt32} {pages : List Page}
    (hl : Live w.server h a n) (hp : st h = some pages) (hi : i < n) (d : Page) :
    Refines { w with space := w.space.memcpyTo (Server.addrWithOffset a 4096 i) d }
      (Function.update st h (some (pages.set i.toNat d))) := by
  have hlt : i.toNat < n.toNat := UInt32.lt_iff_toNat_lt.mp hi
  obtain ⟨pages', hp', hh⟩ := hR.live h a n hl
  obtain rfl : pages = pages' := Option.some.inj (hp.symm.trans hp')
  rw [addrWithOffset_page hh.small hi hh.bound]
  refine ⟨hR.inStep, ?_, ?_, hR.below, hR.disjoint⟩
  · intro g hg
    have hgh : g ≠ h := by
      rintro rfl
      exact absurd (hl.1.symm.trans hg) (by simp)
    rw [Function.update_of_ne hgh, hR.dead g hg]
  · intro g a' n' hl'
    by_cases hgh : g = h
    · subst hgh
      obtain ⟨rfl, rfl⟩ := hl.unique hl'
      exact ⟨_, Function.update_self _ _ _, hh.memcpyTo_page d i.toNat⟩
    · obtain ⟨q, hq, hh'⟩ := hR.live g a' n' hl'
      have hd := hR.disjoint g h a' a n' n hl' hl hgh
      exact ⟨q, by rw [Function.update_of_ne hgh, hq], hh'.memcpyTo_other d (by omega)⟩

lemma Refines.freed (hR : Refines w st) {h : Handle} {a : Nat} {n : UInt32}
    (hl : Live w.server h a n) (answer : Bool) :
    Refines ⟨Server.freed w.server h, (w.space.munmap a (4096 * n.toNat) answer).2⟩
      (Function.update st h none) := by
  refine ⟨hR.inStep.freed h, ?_, ?_, HandlesBelow.freed hR.below h, ?_⟩
  · intro g hg
    by_cases hgh : g = h
    · simp [hgh]
    · simp only [Server.freed, UnorderedMap.find_erase, hgh, if_false] at hg
      rw [Function.update_of_ne hgh, hR.dead g hg]
  · intro g a' n' hl'
    obtain ⟨hgh, hl'⟩ := live_freed.mp hl'
    obtain ⟨q, hq, hh'⟩ := hR.live g a' n' hl'
    have hd := hR.disjoint g h a' a n' n hl' hl hgh
    exact ⟨q, by rw [Function.update_of_ne hgh, hq], hh'.munmap (by omega) answer⟩
  · intro g g' a' a'' n' n'' hl' hl''
    exact hR.disjoint g g' a' a'' n' n'' (live_freed.mp hl').2 (live_freed.mp hl'').2

lemma mmap_refused {v : AddressSpace} {npages : UInt32} {answer : Option Nat}
    (hsmall : npages.toNat < 2 ^ 20) (hm : (v.mmap (npages * 4096).toNat answer).1 = none) :
    npages = 0 ∨ answer = none := by
  rw [toNat_mul_4096 hsmall] at hm
  unfold AddressSpace.mmap at hm
  split at hm
  · next hz =>
    left
    have hn : npages.toNat = 0 := by omega
    exact UInt32.toNat_inj.mp hn
  · right
    cases answer with
    | none => rfl
    | some b => simp at hm

/-- One call on a packet of the page size is matched by one step of the store. -/
theorem Refines.step {w' : Host} {c : Call} (hR : Refines w st) (hsz : c.packet.size = 4096)
    (hal : c.packet.action = 0 →
      c.packet.npages.toNat < 2 ^ 20 ∧ w.server.handleCount.toNat + 1 < 2 ^ 32)
    (hs : Host.Step w c w') : ∃ st', PageStore.Step st c st' ∧ Refines w' st' := by
  have ho := step_outcome hR.inStep hs
  obtain ⟨os, p, r⟩ := c
  obtain ⟨hadm, -⟩ := hs
  dsimp only at *
  cases ho with
  | allocFailed h0 hm =>
    rw [hsz] at hm
    exact ⟨st, .allocFailed h0 (mmap_refused (hal h0).1 hm) rfl, hR⟩
  | alloced h0 b hlen hm =>
    obtain ⟨hsm, hc⟩ := hal h0
    have hn : p.npages ≠ 0 := npages_ne_zero_of_mul hlen
    have hadm := hadm h0
    rw [hsz, toNat_mul_4096 hsm, hm] at hadm
    refine ⟨_, .alloc h0 hn (by simp [hm]) (handleOfCount w.server.handleCount) ?_ rfl, ?_⟩
    · exact hR.dead _ (HandlesBelow.fresh_handle hR.below)
    · rw [hsz, toNat_mul_4096 hsm]
      exact hR.alloced hn hsm hadm hc
  | readInvalid h1 hd => exact ⟨st, .readInvalid h1 (hR.dead _ hd) rfl, hR⟩
  | readFailed h1 a n hl ho =>
    obtain ⟨pages, hp, hh⟩ := hR.live _ a n hl
    refine ⟨st, .readFailed h1 pages hp ?_ rfl, hR⟩
    rw [hh.length]
    exact UInt32.le_iff_toNat_le.mp ho
  | read h1 a n hl ho =>
    obtain ⟨pages, hp, hh⟩ := hR.live _ a n hl
    have hlt : p.offset.toNat < pages.length := by
      rw [hh.length]
      exact UInt32.lt_iff_toNat_lt.mp ho
    have hd : w.space.memcpyFrom (Server.addrWithOffset a p.size p.offset) =
        pages[p.offset.toNat] := by
      rw [hsz, addrWithOffset_page hh.small ho hh.bound, hh.contents _ hlt]
    refine ⟨st, .read h1 pages hp pages[p.offset.toNat] (List.getElem?_eq_getElem hlt) ?_, hR⟩
    simp only [hd]
  | writeInvalid h2 hd => exact ⟨st, .writeInvalid h2 (hR.dead _ hd) rfl, hR⟩
  | writeFailed h2 a n hl ho =>
    obtain ⟨pages, hp, hh⟩ := hR.live _ a n hl
    refine ⟨st, .writeFailed h2 pages hp ?_ rfl, hR⟩
    rw [hh.length]
    exact UInt32.le_iff_toNat_le.mp ho
  | written h2 a n hl ho =>
    obtain ⟨pages, hp, hh⟩ := hR.live _ a n hl
    refine ⟨_, .write h2 pages hp ?_ rfl, ?_⟩
    · rw [hh.length]
      exact UInt32.lt_iff_toNat_lt.mp ho
    · rw [hsz]
      exact hR.written hl hp ho p.data
  | freeInvalid h3 hd => exact ⟨st, .freeInvalid h3 (hR.dead _ hd) rfl, hR⟩
  | freeFailed h3 a n hl hm =>
    obtain ⟨pages, hp, hh⟩ := hR.live _ a n hl
    refine ⟨st, .freeFailed h3 pages hp ?_ rfl, hR⟩
    have hn0 : n.toNat ≠ 0 := fun h0 => hR.inStep.npages_ne _ n hl.2 (UInt32.toNat_inj.mp h0)
    rw [hsz, toNat_mul_4096 hh.small] at hm
    unfold AddressSpace.munmap at hm
    split at hm
    · next hor =>
      rcases hor with h | h | h
      · omega
      · exact absurd hh.aligned h
      · exact h
    · simp at hm
  | freed h3 a n hl hm =>
    obtain ⟨pages, hp, hh⟩ := hR.live _ a n hl
    rw [hsz, toNat_mul_4096 hh.small] at hm ⊢
    refine ⟨_, .free h3 pages hp ?_ rfl, hR.freed hl os.munmapAnswer⟩
    unfold AddressSpace.munmap at hm
    split at hm
    · simp at hm
    · next hor => simpa using fun h => hor (.inr (.inr h))
  | unknown h0 h1 h2 h3 => exact ⟨st, .unknown h0 h1 h2 h3 rfl, hR⟩

end Simulation

/-! ### Reads return the latest write -/

/-- The page `(h, i)` after the given calls: zeros when a successful `alloc` returned `h`, then
the data of each successful write to `(h, i)`. -/
def lastWritten (h : Handle) (i : Nat) (calls : List Call) : Page :=
  calls.foldl (fun d c =>
    if c.packet.action = 0 ∧ c.reply.error = 0 ∧ c.reply.hndl = h then zeroPage
    else if c.packet.action = 2 ∧ c.reply.error = 0 ∧ c.packet.hndl = h ∧
      c.packet.offset.toNat = i then c.packet.data
    else d) zeroPage

/-- Every successful read returns what was last written to its page. -/
def ReadsLatest (calls : List Call) : Prop :=
  ∀ before c after, calls = before ++ c :: after → c.packet.action = 1 → c.reply.error = 0 →
    c.reply.data = lastWritten c.packet.hndl c.packet.offset.toNat before

/-- Every page of the store is the one last written. -/
def PagesLatest (st : PageStore) (calls : List Call) : Prop :=
  ∀ h pages, st h = some pages →
    ∀ i, i < pages.length → pages[i]? = some (lastWritten h i calls)

lemma lastWritten_snoc (h : Handle) (i : Nat) (calls : List Call) (c : Call) :
    lastWritten h i (calls ++ [c]) =
      if c.packet.action = 0 ∧ c.reply.error = 0 ∧ c.reply.hndl = h then zeroPage
      else if c.packet.action = 2 ∧ c.reply.error = 0 ∧ c.packet.hndl = h ∧
        c.packet.offset.toNat = i then c.packet.data
      else lastWritten h i calls := by
  simp [lastWritten]

lemma lastWritten_snoc_of_failed (h : Handle) (i : Nat) (calls : List Call) (c : Call)
    (he : c.reply.error ≠ 0) : lastWritten h i (calls ++ [c]) = lastWritten h i calls := by
  simp [lastWritten_snoc, he]

lemma lastWritten_snoc_of_action (h : Handle) (i : Nat) (calls : List Call) (c : Call)
    (h0 : c.packet.action ≠ 0) (h2 : c.packet.action ≠ 2) :
    lastWritten h i (calls ++ [c]) = lastWritten h i calls := by
  simp [lastWritten_snoc, h0, h2]

/-- The call maps a new region. -/
def Allocates (c : Call) : Prop :=
  c.packet.action = 0 ∧ c.packet.npages ≠ 0 ∧ c.os.mmapAnswer ≠ none

instance (c : Call) : Decidable (Allocates c) := inferInstanceAs (Decidable (_ ∧ _))

/-- The handle of a new region is not one whose pages have been written. -/
def NewHandles (calls : List Call) : Prop :=
  calls.Pairwise (fun d c => Allocates c →
    d.packet.action = 2 → d.reply.error = 0 → d.packet.hndl ≠ c.reply.hndl)

lemma newHandles_snoc {calls : List Call} {c : Call} :
    NewHandles (calls ++ [c]) ↔ NewHandles calls ∧ ∀ d ∈ calls, Allocates c →
      d.packet.action = 2 → d.reply.error = 0 → d.packet.hndl ≠ c.reply.hndl := by
  rw [NewHandles, List.pairwise_append]
  simp only [List.pairwise_singleton, List.mem_singleton, forall_eq, true_and, NewHandles]

lemma lastWritten_unwritten {h : Handle} {calls : List Call}
    (hnone : ∀ d ∈ calls, d.packet.action = 2 → d.reply.error = 0 → d.packet.hndl ≠ h) (i : Nat) :
    lastWritten h i calls = zeroPage := by
  induction calls using List.reverseRecOn with
  | nil => rfl
  | append_singleton calls c ih =>
    rw [forall_mem_snoc] at hnone
    have hlast : ¬ (c.packet.action = 2 ∧ c.reply.error = 0 ∧ c.packet.hndl = h ∧
        c.packet.offset.toNat = i) := fun ⟨h2, he, hh, _⟩ => hnone.2 h2 he hh
    rw [lastWritten_snoc, if_neg hlast, ih hnone.1]
    exact ite_self _

/-- A step of the store keeps every page equal to the one last written. -/
lemma PagesLatest.step {st st' : PageStore} {calls : List Call} {c : Call}
    (h : PagesLatest st calls) (he : c.packet.action ≠ 0 → c.packet.error = 0)
    (hnew : Allocates c → ∀ i, lastWritten c.reply.hndl i calls = zeroPage)
    (hs : PageStore.Step st c st') : PagesLatest st' (calls ++ [c]) := by
  have hfail : c.reply.error ≠ 0 → PagesLatest st (calls ++ [c]) := by
    intro hne g pages hp i hi
    rw [lastWritten_snoc_of_failed g i calls c hne]
    exact h g pages hp i hi
  have hquiet : c.packet.action ≠ 0 → c.packet.action ≠ 2 → PagesLatest st (calls ++ [c]) := by
    intro h0 h2 g pages hp i hi
    rw [lastWritten_snoc_of_action g i calls c h0 h2]
    exact h g pages hp i hi
  cases hs with
  | allocFailed _ _ hr => exact hfail (by simp [hr])
  | alloc h0 hn hm g hg hr =>
    intro g' pages hp i hi
    rw [lastWritten_snoc]
    by_cases hgg : g' = g
    · subst hgg
      rw [Function.update_self] at hp
      obtain rfl := Option.some.inj hp
      rw [List.length_replicate] at hi
      have hzero := hnew ⟨h0, hn, hm⟩ i
      rw [hr] at hzero
      simp [h0, hr, hi, hzero]
    · rw [Function.update_of_ne hgg] at hp
      have hne : g ≠ g' := fun h => hgg h.symm
      simp only [h0, hr, hne, and_false, if_false]
      simpa using h g' pages hp i hi
  | readInvalid h1 _ hr => exact hfail (by simp [hr])
  | readFailed h1 _ _ _ hr => exact hfail (by simp [hr])
  | read h1 _ _ _ _ hr => exact hquiet (by rw [h1]; decide) (by rw [h1]; decide)
  | writeInvalid h2 _ hr => exact hfail (by simp [hr])
  | writeFailed h2 _ _ _ hr => exact hfail (by simp [hr])
  | write h2 pages hl ho hr =>
    intro g pages' hp i hi
    have he : c.packet.error = 0 := he (by rw [h2]; decide)
    rw [lastWritten_snoc]
    simp only [h2, hr, he, true_and]
    by_cases hgg : g = c.packet.hndl
    · subst hgg
      rw [Function.update_self] at hp
      obtain rfl := Option.some.inj hp
      rw [List.length_set] at hi
      by_cases hoi : c.packet.offset.toNat = i
      · subst hoi
        simp [ho]
      · simp only [hoi, and_false, if_false]
        rw [List.getElem?_set_ne hoi]
        exact h _ pages hl i hi
    · rw [Function.update_of_ne hgg] at hp
      have hne : c.packet.hndl ≠ g := fun h => hgg h.symm
      simp only [hne, false_and, if_false]
      exact h g pages' hp i hi
  | freeInvalid h3 _ hr => exact hfail (by simp [hr])
  | freeFailed h3 _ _ _ hr => exact hfail (by simp [hr])
  | free h3 pages hl hm hr =>
    intro g pages' hp i hi
    have h0 : c.packet.action ≠ 0 := by rw [h3]; decide
    have h2 : c.packet.action ≠ 2 := by rw [h3]; decide
    rw [lastWritten_snoc_of_action g i calls c h0 h2]
    by_cases hgg : g = c.packet.hndl
    · subst hgg
      simp at hp
    · rw [Function.update_of_ne hgg] at hp
      exact h g pages' hp i hi
  | unknown _ _ _ _ hr => exact hfail (by simp [hr])

/-- Along a run of the store that starts empty, reads return the latest write. -/
theorem page_store_reads_latest {tr : List (PageStore × Call)} {st : PageStore}
    (h : Run PageStore.Step (fun _ => none) tr st)
    (he : ∀ c ∈ tr.map Prod.snd, c.packet.action ≠ 0 → c.packet.error = 0)
    (hnew : NewHandles (tr.map Prod.snd)) :
    PagesLatest st (tr.map Prod.snd) ∧ ReadsLatest (tr.map Prod.snd) := by
  induction h with
  | nil => exact ⟨by simp [PagesLatest], by simp [ReadsLatest]⟩
  | @snoc st st' tr c hr hs ih =>
    rw [List.map_append, List.map_singleton] at he hnew ⊢
    rw [forall_mem_snoc] at he
    rw [newHandles_snoc] at hnew
    obtain ⟨hp, hl⟩ := ih he.1 hnew.1
    refine ⟨hp.step he.2 (fun ha => lastWritten_unwritten (fun d hd => hnew.2 d hd ha)) hs, ?_⟩
    intro before d after hsplit h1 hok
    rcases List.eq_nil_or_concat after with rfl | ⟨after, z, rfl⟩
    · obtain ⟨rfl, hd⟩ := List.append_inj' hsplit rfl
      obtain rfl : c = d := by simpa using hd
      cases hs with
      | read _ pages hl' x ho hr' =>
        have hlt := (List.getElem?_eq_some_iff.mp ho).1
        rw [hr']
        exact Option.some.inj (ho.symm.trans (hp _ pages hl' _ hlt))
      | readInvalid _ _ hr' => exact absurd hok (by simp [hr'])
      | readFailed _ _ _ _ hr' => exact absurd hok (by simp [hr'])
      | unknown _ h1' => exact absurd h1 h1'
      | _ => simp_all
    · rw [List.concat_eq_append, ← List.cons_append, ← List.append_assoc] at hsplit
      obtain ⟨hb, -⟩ := List.append_inj' hsplit rfl
      exact hl before d after hb h1 hok

lemma counter_of_step {w w' : Host} {c : Call} (hs : InStep w.server) (hst : Host.Step w c w')
    (hsz : c.packet.size = 4096) (hal : c.packet.action = 0 →
      c.packet.npages.toNat < 2 ^ 20 ∧ w.server.handleCount.toNat + 1 < 2 ^ 32) :
    w.server.handleCount.toNat ≤ w'.server.handleCount.toNat ∧
      (Allocates c → c.reply.hndl = handleOfCount w.server.handleCount ∧
        w.server.handleCount.toNat < w'.server.handleCount.toNat) := by
  have ho := step_outcome hs hst
  obtain ⟨os, p, r⟩ := c
  dsimp only at *
  have hother : p.action ≠ 0 → ¬ Allocates ⟨os, p, r⟩ := fun h0 ha => h0 ha.1
  cases ho with
  | allocFailed h0 hm =>
    rw [hsz] at hm
    exact ⟨le_rfl, fun ⟨_, hn, ha⟩ => ((mmap_refused (hal h0).1 hm).elim hn ha).elim⟩
  | alloced h0 a hlen hm =>
    have hnext := toNat_handleCount_add_one (hal h0).2
    exact ⟨(Nat.le_succ _).trans hnext.ge, fun _ => ⟨rfl, Nat.lt_of_succ_le hnext.ge⟩⟩
  | readInvalid ha => exact ⟨le_rfl, fun h => (hother (by simp [ha]) h).elim⟩
  | readFailed ha => exact ⟨le_rfl, fun h => (hother (by simp [ha]) h).elim⟩
  | read ha => exact ⟨le_rfl, fun h => (hother (by simp [ha]) h).elim⟩
  | writeInvalid ha => exact ⟨le_rfl, fun h => (hother (by simp [ha]) h).elim⟩
  | writeFailed ha => exact ⟨le_rfl, fun h => (hother (by simp [ha]) h).elim⟩
  | written ha => exact ⟨le_rfl, fun h => (hother (by simp [ha]) h).elim⟩
  | freeInvalid ha => exact ⟨le_rfl, fun h => (hother (by simp [ha]) h).elim⟩
  | freeFailed ha => exact ⟨le_rfl, fun h => (hother (by simp [ha]) h).elim⟩
  | freed ha => exact ⟨le_rfl, fun h => (hother (by simp [ha]) h).elim⟩
  | unknown ha => exact ⟨le_rfl, fun h => (hother ha h).elim⟩

lemma written_live {w w' : Host} {c : Call} (hs : InStep w.server) (hst : Host.Step w c w')
    (h2 : c.packet.action = 2) (he : c.reply.error = 0) :
    ∃ a, w.server.addrMap.find c.packet.hndl = some a := by
  have ho := step_outcome hs hst
  obtain ⟨os, p, r⟩ := c
  dsimp only at *
  cases ho with
  | writeInvalid => cases he
  | writeFailed => cases he
  | written _ a n hl => exact ⟨a, hl.1⟩
  | unknown _ _ h2' => exact (h2' h2).elim
  | _ => simp_all

/-- The requests of a call keep to the page size and to what the handle counter has room for. -/
def WithinBounds (w : Host) (c : Call) : Prop :=
  c.packet.size = 4096 ∧ (c.packet.action = 0 →
    c.packet.npages.toNat < 2 ^ 20 ∧ w.server.handleCount.toNat + 1 < 2 ^ 32)

/-- The server represents a store, and the pages that were written are of handles it has given. -/
structure HandedOut (calls : List Call) (w : Host) : Prop where
  refines : ∃ st, Refines w st
  written : ∀ d ∈ calls, d.packet.action = 2 → d.reply.error = 0 →
    ∃ n, n < w.server.handleCount.toNat ∧ d.packet.hndl = Int.ofNat n
  new : NewHandles calls

lemma HandedOut.step {calls : List Call} {w w' : Host} {c : Call} (h : HandedOut calls w)
    (hc : WithinBounds w c) (hs : Host.Step w c w') : HandedOut (calls ++ [c]) w' := by
  obtain ⟨st, hR⟩ := h.refines
  obtain ⟨hle, hnew⟩ := counter_of_step hR.inStep hs hc.1 hc.2
  obtain ⟨st', -, hR'⟩ := hR.step hc.1 hc.2 hs
  constructor
  · exact ⟨st', hR'⟩
  · rw [forall_mem_snoc]
    constructor
    · intro d hd h2 he
      obtain ⟨n, hn, hh⟩ := h.written d hd h2 he
      exact ⟨n, hn.trans_le hle, hh⟩
    · intro h2 he
      obtain ⟨a, ha⟩ := written_live hR.inStep hs h2 he
      obtain ⟨n, hn, hh⟩ := hR.below _ a ha
      exact ⟨n, hn.trans_le hle, hh⟩
  · refine newHandles_snoc.mpr ⟨h.new, fun d hd ha h2 he heq => ?_⟩
    obtain ⟨n, hn, hh⟩ := h.written d hd h2 he
    have hcount : n = w.server.handleCount.toNat :=
      Int.ofNat.inj (hh.symm.trans (heq.trans (hnew ha).1))
    omega

/-- Requests that fit are answered by a fresh server as by a page store that started empty, and
every new region has a new handle. -/
lemma run_page_store {mem : Nat → UInt8} {tr : List (Host × Call)} {w : Host}
    (hrun : Run Host.Step (Host.fresh mem) tr w) (hC : ∀ x ∈ tr, WithinBounds x.1 x.2) :
    (∃ tr' st, Run PageStore.Step (fun _ => none) tr' st ∧
      tr'.map Prod.snd = tr.map Prod.snd ∧ Refines w st) ∧ NewHandles (tr.map Prod.snd) := by
  refine ⟨hrun.simulate (C := WithinBounds) (fun w c w' st hR hC hs => hR.step hC.1 hC.2 hs)
    (fresh_refines mem) hC, ?_⟩
  have h := hrun.history_invariant (I := fun h w => HandedOut (h.map Prod.snd) w)
    (C := fun _ w c => WithinBounds w c)
    (fun h t e u hI hC hs => by
      rw [List.map_append]
      exact hI.step hC hs)
    ⟨⟨_, fresh_refines mem⟩, by simp, List.Pairwise.nil⟩
    (fun h x hp => hC x (hp.subset (by simp)))
  exact h.new

/-- For every sequence of packets of the page size handled by a fresh server, the replies
are those of a page store that started empty, so that reads return the latest write. -/
theorem server_refines_page_store (mem : Nat → UInt8) (tr : List (Host × Call)) (w : Host)
    (hrun : Run Host.Step (Host.fresh mem) tr w)
    (hpkt : ∀ x ∈ tr, x.2.packet.size = 4096 ∧ x.2.packet.error = 0 ∧
      (x.2.packet.action = 0 → x.2.packet.npages.toNat < 2 ^ 20))
    (hcount : tr.countP (fun x => x.2.packet.action = 0) < 2 ^ 32) :
    (∃ tr' st, Run PageStore.Step (fun _ => none) tr' st ∧
      tr'.map Prod.snd = tr.map Prod.snd ∧ Refines w st) ∧ ReadsLatest (tr.map Prod.snd) := by
  have hC : ∀ x ∈ tr, WithinBounds x.1 x.2 := by
    intro x hx
    obtain ⟨hsz, -, hsm⟩ := hpkt x hx
    exact ⟨hsz, fun h0 => ⟨hsm h0, run_handleCount_lt hrun hcount x hx h0⟩⟩
  obtain ⟨⟨tr', st, hst, hlab, hR⟩, hnew⟩ := run_page_store hrun hC
  refine ⟨⟨tr', st, hst, hlab, hR⟩, ?_⟩
  rw [← hlab] at hnew ⊢
  refine (page_store_reads_latest hst ?_ hnew).2
  rw [hlab, List.forall_mem_map]
  exact fun x hx _ => (hpkt x hx).2.1

/-- Allocate one page at address 4096, write it and read it back. -/
def writeThenRead : List (Os × Packet) :=
  let p : Packet := ⟨0, 1, 4096, 0, 0, fun _ => 7, 0⟩
  let os : Os := ⟨some 4096, true⟩
  [(os, p), (os, { p with action := 2 }), (os, { p with action := 1, data := zeroPage })]

theorem write_then_read_refines :
    ReadsLatest (((Host.fresh fun _ => 0).handleAll writeThenRead).1.map Prod.snd) := by
  refine (server_refines_page_store (fun _ => 0) _ _ (handleAll_run _ writeThenRead ?_) ?_ ?_).2
  · simp only [writeThenRead, Host.handleAll, List.forall_mem_cons, Os.Admissible]
    exact ⟨fun _ => fresh_mmapAnswer _ (UInt32.toNat_lt _), by simp⟩
  · simp [writeThenRead, Host.handleAll]
  · simp [writeThenRead, Host.handleAll]

end RemoteMemoryPool.Proofs
