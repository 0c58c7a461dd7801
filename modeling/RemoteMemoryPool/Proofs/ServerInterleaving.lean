import RemoteMemoryPool.Proofs.PageStore
import RemoteMemoryPool.Proofs.Registry
import Mathlib.Data.Fintype.Basic

/-!
# Concurrent calls keep the server consistent

Calls of `rmp::Server::handle` check a handle, look it up and use its region in separate steps,
so a call that frees the handle in between leaves the others with a region that is gone. In
every run in which no call is past its check of a handle while another call has unmapped its
region and not yet erased its address, and in which no handle in use is handed out again, all
accesses are to mapped memory, every region is unmapped once and for its own handle, and the
maps agree whenever no call is in progress.
-/

namespace RemoteMemoryPool.Proofs

open Interaction Transition

variable {ι : Type} [DecidableEq ι]

/-- The call that mapped a byte, until the byte is unmapped. -/
def mapper (tr : CallHistory ι) : Nat → Option ι :=
  tr.foldl (fun m x => match x.2 with
    | ⟨i, .mmap len, some a⟩ => fun y => if inRegion a len y then some i else m y
    | ⟨_, .munmap a len, true⟩ => fun y => if inRegion a len y then none else m y
    | _ => m) (fun _ => none)

/-- The handle a call was given for the region it mapped. -/
def handleGiven (tr : CallHistory ι) : ι → Option Handle :=
  tr.foldl (fun g x => match x.2 with
    | ⟨i, .getNewHandle, n⟩ => Function.update g i (some (handleOfCount n))
    | _ => g) (fun _ => none)

/-- `memcpy` touches mapped memory only, and `munmap` unmaps memory that is mapped and was
mapped for the handle being freed. -/
def SafeStep (pkts : ι → Packet) (tr : CallHistory ι) (w : Host) : Action ι ServerOp.Res → Prop
  | ⟨_, .memcpyFrom b, _⟩ => ∀ x, b ≤ x → x < b + 4096 → w.space.mapped x = true
  | ⟨_, .memcpyTo b _, _⟩ => ∀ x, b ≤ x → x < b + 4096 → w.space.mapped x = true
  | ⟨j, .munmap b len, _⟩ => ∀ x, inRegion b len x = true → w.space.mapped x = true ∧
      ∃ i, mapper tr x = some i ∧ handleGiven tr i = some (pkts j).hndl
  | _ => True

/-- The maps have the same keys, no address is null, and every recorded region is mapped. -/
structure Consistent (w : Host) : Prop where
  sameKeys : ∀ h, w.server.addrMap.Contains h ↔ w.server.hndlNPages.Contains h
  notNull : ∀ h a, w.server.addrMap.find h = some a → a ≠ 0
  mapped : ∀ h a n, w.server.addrMap.find h = some a → w.server.hndlNPages.find h = some n →
    ∀ x, inRegion a (4096 * n.toNat) x = true → w.space.mapped x = true

/-- Operations a call performs only after its last check of the handle. -/
def usesHandle : ServerOp → Bool
  | .getHndlNPages _ => true
  | .getAddrMap _ => true
  | .memcpyFrom _ => true
  | .memcpyTo _ _ => true
  | .munmap _ _ => true
  | _ => false

def erasesAddr : ServerOp → Bool
  | .unsetAddrMap _ => true
  | _ => false

def entersHandle : ServerOp → Option Handle
  | .setAddrMap h _ => some h
  | _ => none

/-- While a call has unmapped the region of a handle and not erased its address, no other call
is past its check of the handle. -/
def Apart (pkts : ι → Packet) (c : Calls ι) : Prop :=
  ∀ i j, i ≠ j → (pkts i).hndl = (pkts j).hndl → (nextOp (c.threads i)).any erasesAddr = true →
    (nextOp (c.threads j)).any usesHandle = false

instance [Fintype ι] (pkts : ι → Packet) (c : Calls ι) : Decidable (Apart pkts c) :=
  inferInstanceAs (Decidable (∀ i j, i ≠ j → (pkts i).hndl = (pkts j).hndl →
    (nextOp (c.threads i)).any erasesAddr = true → (nextOp (c.threads j)).any usesHandle = false))

def handsOut : ServerOp → Bool
  | .getNewHandle => true
  | _ => false

/-- A handle that is handed out is not in use: neither map has it, and no call is about to
enter it. -/
def FreshHandle (c : Calls ι) (op : ServerOp) : Prop :=
  handsOut op = true →
    c.state.server.addrMap.find (handleOfCount c.state.server.handleCount) = none ∧
      c.state.server.hndlNPages.find (handleOfCount c.state.server.handleCount) = none ∧
      ∀ j, (nextOp (c.threads j)).bind entersHandle ≠
        some (handleOfCount c.state.server.handleCount)

instance [Fintype ι] (c : Calls ι) (op : ServerOp) : Decidable (FreshHandle c op) :=
  inferInstanceAs (Decidable (handsOut op = true →
    c.state.server.addrMap.find (handleOfCount c.state.server.handleCount) = none ∧
      c.state.server.hndlNPages.find (handleOfCount c.state.server.handleCount) = none ∧
      ∀ j, (nextOp (c.threads j)).bind entersHandle ≠
        some (handleOfCount c.state.server.handleCount)))

/-! ### Where a call stands and what it performs next -/

lemma answer_nonempty (op : ServerOp) : Nonempty op.Res := by
  cases op with
  | getNewHandle => exact ⟨(0 : UInt32)⟩
  | getAddrMap h => exact ⟨(0 : Nat)⟩
  | getHndlNPages h => exact ⟨(0 : UInt32)⟩
  | containsKey h => exact ⟨true⟩
  | mmap len => exact ⟨none⟩
  | munmap a len => exact ⟨true⟩
  | memcpyFrom a => exact ⟨zeroPage⟩
  | _ => exact ⟨()⟩

lemma nextOp_of_follows {x : ServerM Packet} {p : Packet} {pc : Pc}
    (hx : x.Follows (Flow p) pc (fun _ pc => pc = .done ∨ pc = .start)) :
    (pc = .done ∨ pc = .start) ∨ ∃ op r pc', nextOp x = some op ∧ Flow p pc op r pc' := by
  cases x with
  | pure a => exact .inl hx
  | call op next =>
    obtain ⟨r⟩ := answer_nonempty op
    obtain ⟨pc', hflow, -⟩ := hx r
    exact .inr ⟨op, r, pc', rfl, hflow⟩

lemma erasesAddr_of_follows {x : ServerM Packet} {p : Packet}
    (hx : x.Follows (Flow p) .unmapped (fun _ pc => pc = .done ∨ pc = .start)) :
    (nextOp x).any erasesAddr = true := by
  rcases nextOp_of_follows hx with h | ⟨op, r, pc', hop, hflow⟩
  · simp at h
  · cases hflow
    rw [hop]
    rfl

lemma usesHandle_of_follows {x : ServerM Packet} {p : Packet} {pc : Pc}
    (hx : x.Follows (Flow p) pc (fun _ pc => pc = .done ∨ pc = .start))
    (hc : pc.concerns p ≠ none) (ht : pc.target p = none) : (nextOp x).any usesHandle = true := by
  rcases nextOp_of_follows hx with (rfl | rfl) | ⟨op, r, pc', hop, hflow⟩
  · exact (hc rfl).elim
  · exact (hc rfl).elim
  · rw [hop]
    cases hflow <;> first | rfl | exact (hc rfl).elim | cases ht

lemma entersHandle_of_follows {x : ServerM Packet} {p : Packet} {a : Nat} {h : Handle}
    (hx : x.Follows (Flow p) (.numbered a h) (fun _ pc => pc = .done ∨ pc = .start)) :
    (nextOp x).bind entersHandle = some h := by
  rcases nextOp_of_follows hx with h | ⟨op, r, pc', hop, hflow⟩
  · simp at h
  · cases hflow
    rw [hop]
    rfl

lemma nextOp_handle (p : Packet) : (∃ len, nextOp (Server.handle p) = some (.mmap len)) ∨
    (∃ h, nextOp (Server.handle p) = some (.containsKey h)) ∨ nextOp (Server.handle p) = none := by
  unfold Server.handle
  split
  · exact .inl ⟨_, rfl⟩
  split
  · exact .inr (.inl ⟨_, rfl⟩)
  split
  · exact .inr (.inl ⟨_, rfl⟩)
  split
  · exact .inr (.inl ⟨_, rfl⟩)
  · exact .inr (.inr rfl)

lemma concerns_of_quiescent {x : ServerM Packet} {p : Packet} {pc : Pc}
    (hx : x.Follows (Flow p) pc (fun _ pc => pc = .done ∨ pc = .start))
    (hq : x = Server.handle p ∨ ∃ reply, x = .pure reply) : pc.concerns p = none := by
  rcases nextOp_of_follows hx with (rfl | rfl) | ⟨op, r, pc', hop, hflow⟩
  · rfl
  · rfl
  · rcases hq with rfl | ⟨reply, rfl⟩
    · rcases nextOp_handle p with ⟨len, h⟩ | ⟨k, h⟩ | h
      · obtain rfl : op = .mmap len := Option.some.inj (hop.symm.trans h)
        cases hflow <;> rfl
      · obtain rfl : op = .containsKey k := Option.some.inj (hop.symm.trans h)
        cases hflow <;> rfl
      · rw [h] at hop
        cases hop
    · cases hop

/-! ### The invariant -/

/-- Who holds a region: a handle, or a call that has mapped it and not been given a handle. -/
def title (tr : CallHistory ι) (i : ι) : Handle ⊕ ι :=
  match handleGiven tr i with
  | some h => .inl h
  | none => .inr i

def regionOf (pkts : ι → Packet) (pcs : ι → Pc) (status : Handle → Status ι) :
    Handle ⊕ ι → Option (Nat × UInt32)
  | .inl h => (status h).region
  | .inr i =>
    match pcs i with
    | .mapped a => some (a, (pkts i).npages)
    | _ => none

omit [DecidableEq ι] in
lemma regionOf_inr_none {pkts : ι → Packet} {pcs : ι → Pc} {status : Handle → Status ι} {i : ι}
    (hpc : ∀ a, pcs i ≠ .mapped a) : regionOf pkts pcs status (.inr i) = none := by
  cases h : pcs i with
  | mapped a => exact (hpc a h).elim
  | _ => simp [regionOf, h]

/-- Every byte of a region is mapped by the call whose region it is. -/
structure Interleaved (pkts : ι → Packet) (tr : CallHistory ι) (pcs : ι → Pc)
    (status : Handle → Status ι) (w : Host) : Prop where
  control : Control pkts pcs status w.server
  titled : ∀ k a n x, regionOf pkts pcs status k = some (a, n) → a ≤ x → x < a + 4096 * n.toNat →
    ∃ i, mapper tr x = some i ∧ title tr i = k
  owned : ∀ x i, mapper tr x = some i → w.space.mapped x = true
  sound : ∀ k a n, regionOf pkts pcs status k = some (a, n) →
    a ≠ 0 ∧ a % 4096 = 0 ∧ a + 4096 * n.toNat ≤ 2 ^ 64 ∧ n.toNat < 2 ^ 20
  ungiven : ∀ i, (pcs i = .start ∨ ∃ a, pcs i = .mapped a) → handleGiven tr i = none

lemma Interleaved.move {pkts : ι → Packet} {tr tr' : CallHistory ι} {pcs : ι → Pc}
    {status : Handle → Status ι} {w w' : Host} (hI : Interleaved pkts tr pcs status w) {i : ι}
    {pc : Pc} {h : Handle} {st : Status ι} (hmapper : mapper tr' = mapper tr)
    (hgiven : handleGiven tr' = handleGiven tr) (hmapped : w'.space.mapped = w.space.mapped)
    (hregion : st.region = (status h).region) (hpc : ∀ a, pcs i ≠ .mapped a)
    (hpc' : ∀ a, pc ≠ .mapped a) (hstart : pc ≠ .start)
    (hcontrol : Control pkts (Function.update pcs i pc) (Function.update status h st) w'.server) :
    Interleaved pkts tr' (Function.update pcs i pc) (Function.update status h st) w' := by
  have hsame : regionOf pkts (Function.update pcs i pc) (Function.update status h st) =
      regionOf pkts pcs status := by
    funext k
    cases k with
    | inl k =>
      by_cases hk : k = h
      · subst hk
        simp [regionOf, hregion]
      · simp [regionOf, hk]
    | inr j =>
      by_cases hj : j = i
      · subst hj
        rw [regionOf_inr_none hpc, regionOf_inr_none]
        rw [Function.update_self]
        exact hpc'
      · simp [regionOf, hj]
  constructor
  · exact hcontrol
  · rw [hsame, hmapper]
    simp only [title, hgiven]
    exact hI.titled
  · rw [hmapper, hmapped]
    exact hI.owned
  · rw [hsame]
    exact hI.sound
  · intro j hj
    rw [hgiven]
    by_cases hji : j = i
    · subst hji
      rw [Function.update_self] at hj
      rcases hj with hj | ⟨a, hj⟩
      · exact (hstart hj).elim
      · exact (hpc' a hj).elim
    · rw [Function.update_of_ne hji] at hj
      exact hI.ungiven j hj

lemma Interleaved.stay {pkts : ι → Packet} {tr tr' : CallHistory ι} {pcs : ι → Pc}
    {status : Handle → Status ι} {w w' : Host} (hI : Interleaved pkts tr pcs status w) {i : ι}
    {pc : Pc} (hmapper : mapper tr' = mapper tr) (hgiven : handleGiven tr' = handleGiven tr)
    (hmapped : w'.space.mapped = w.space.mapped) (htarget : (pcs i).target (pkts i) = none)
    (hpc : ∀ a, pcs i ≠ .mapped a) (hpc' : ∀ a, pc ≠ .mapped a) (hstart : pc ≠ .start)
    (hself : Agrees status i (pkts i) pc)
    (hmatch : ∀ h, (status h).Matches (w'.server.addrMap.find h) (w'.server.hndlNPages.find h)) :
    ∃ status', Interleaved pkts tr' (Function.update pcs i pc) status' w' := by
  refine ⟨status, ?_⟩
  have hcontrol := hI.control.stay htarget hself hmatch
  rw [← Function.update_eq_self (pkts i).hndl status] at hcontrol ⊢
  exact hI.move hmapper hgiven hmapped rfl hpc hpc' hstart hcontrol

section Steps

variable {pkts : ι → Packet} {tr : CallHistory ι} {pcs : ι → Pc} {status : Handle → Status ι}
  {w w' : Host} {i : ι} {c : Calls ι}

/-- No call is past its check of a handle while another call has unmapped its region. -/
def PcsApart (pkts : ι → Packet) (pcs : ι → Pc) : Prop :=
  ∀ j k, j ≠ k → (pkts j).hndl = (pkts k).hndl → pcs j = .unmapped →
    (pcs k).concerns (pkts k) = none ∨ (pcs k).target (pkts k) ≠ none

lemma step_check (hI : Interleaved pkts tr pcs status w) {pc : Pc} {found : Bool}
    (hpc : pcs i = .start ∨ pcs i = .rechecking)
    (hpc' : pc = .done ∨ pc = .rechecking ∨ (found = true ∧ (pc = .checked ∨ pc = .freeChecked)))
    (heff : (ServerOp.containsKey (pkts i).hndl).Effect w found w')
    (hapart : PcsApart pkts (Function.update pcs i pc)) :
    ∃ status', Interleaved pkts (tr ++ [(c, ⟨i, .containsKey (pkts i).hndl, found⟩)])
      (Function.update pcs i pc) status' w' := by
  obtain ⟨os, -, hexec⟩ := heff
  obtain ⟨hfound, rfl⟩ := Prod.mk.inj hexec
  have husable : found = true → (pc = .checked ∨ pc = .freeChecked) → (status (pkts i).hndl).Usable := by
    rintro rfl huse
    have hcontains : w.server.addrMap.Contains (pkts i).hndl := of_decide_eq_true hfound
    apply hI.control.usable hcontains
    intro j hj hh
    have hji : j ≠ i := by
      rintro rfl
      rcases hpc with h | h <;> rw [h] at hj <;> cases hj
    have := hapart j i hji hh (by rw [Function.update_of_ne hji, hj])
    rw [Function.update_self] at this
    rcases huse with rfl | rfl <;> simp [Pc.concerns, Pc.target] at this
  apply hI.stay (by simp [mapper]) (by simp [handleGiven]) rfl
  · rcases hpc with h | h <;> rw [h] <;> rfl
  · intro a
    rcases hpc with h | h <;> rw [h] <;> simp
  · intro a
    rcases hpc' with rfl | rfl | ⟨-, rfl | rfl⟩ <;> simp
  · rcases hpc' with rfl | rfl | ⟨-, rfl | rfl⟩ <;> simp
  · rcases hpc' with rfl | rfl | ⟨hf, rfl | rfl⟩
    · trivial
    · trivial
    · exact husable hf (.inl rfl)
    · exact husable hf (.inr rfl)
  · exact hI.control.matching

/-- Steps that use a handle past its check and leave the maps as they match. -/
lemma step_use (hI : Interleaved pkts tr pcs status w) {op : ServerOp} {r : op.Res} {pc : Pc}
    (hmapper : mapper (tr ++ [(c, ⟨i, op, r⟩)]) = mapper tr)
    (hgiven : handleGiven (tr ++ [(c, ⟨i, op, r⟩)]) = handleGiven tr)
    (hconcerns : (pcs i).concerns (pkts i) ≠ none) (htarget : (pcs i).target (pkts i) = none)
    (hpc' : pc = .done ∨ pc.concerns (pkts i) ≠ none)
    (hmapped : w'.space.mapped = w.space.mapped) (hself : Agrees status i (pkts i) pc)
    (hmatch : ∀ h, (status h).Matches (w'.server.addrMap.find h) (w'.server.hndlNPages.find h)) :
    ∃ status', Interleaved pkts (tr ++ [(c, ⟨i, op, r⟩)]) (Function.update pcs i pc) status' w' := by
  apply hI.stay hmapper hgiven hmapped htarget _ _ _ hself hmatch
  · intro a ha
    rw [ha] at hconcerns
    exact hconcerns rfl
  · rintro a rfl
    rcases hpc' with h | h
    · cases h
    · exact h rfl
  · rintro rfl
    rcases hpc' with h | h
    · cases h
    · exact h rfl

lemma step_size (hI : Interleaved pkts tr pcs status w) {n : UInt32} {pc : Pc}
    (hpc : pcs i = .checked ∨ pcs i = .freeChecked)
    (hpc' : pc = .done ∨ pc = .sized n ∨ (n ≠ 0 ∧ pc = .freeSized n))
    (heff : (ServerOp.getHndlNPages (pkts i).hndl).Effect w n w') :
    ∃ status', Interleaved pkts (tr ++ [(c, ⟨i, .getHndlNPages (pkts i).hndl, n⟩)])
      (Function.update pcs i pc) status' w' := by
  obtain ⟨os, -, hexec⟩ := heff
  obtain ⟨hn, rfl⟩ := Prod.mk.inj hexec
  have hag := hI.control.agrees i
  have husable : (status (pkts i).hndl).Usable := by
    rcases hpc with h | h <;> rw [h] at hag <;> exact hag
  obtain ⟨hpages, hmatch⟩ := hI.control.lookup_pages husable
  rw [show w.server.hndlNPages.index 0 (pkts i).hndl = n from hn] at hpages
  apply step_use hI (by simp [mapper]) (by simp [handleGiven])
  · rcases hpc with h | h <;> rw [h] <;> simp [Pc.concerns]
  · rcases hpc with h | h <;> rw [h] <;> rfl
  · rcases hpc' with rfl | rfl | ⟨-, rfl⟩ <;> simp [Pc.concerns]
  · rfl
  · rcases hpc' with rfl | rfl | ⟨hne, rfl⟩
    · trivial
    · exact hpages
    · rcases hpages with ⟨hzero, -⟩ | hready
      · exact (hne hzero).elim
      · exact hready
  · exact hmatch

lemma step_locate (hI : Interleaved pkts tr pcs status w) {n : UInt32} {addr : Nat} {pc : Pc}
    (hpc : pcs i = .sized n ∨ pcs i = .freeSized n)
    (hpc' : pc = .done ∨ ((pkts i).offset < n ∧ pc = .located n addr) ∨
      (pcs i = .freeSized n ∧ pc = .freeLocated n addr))
    (heff : (ServerOp.getAddrMap (pkts i).hndl).Effect w addr w') :
    ∃ status', Interleaved pkts (tr ++ [(c, ⟨i, .getAddrMap (pkts i).hndl, addr⟩)])
      (Function.update pcs i pc) status' w' := by
  obtain ⟨os, -, hexec⟩ := heff
  obtain ⟨haddr, rfl⟩ := Prod.mk.inj hexec
  have hag := hI.control.agrees i
  have hconcerns : (pcs i).concerns (pkts i) = some (pkts i).hndl := by
    rcases hpc with h | h <;> rw [h] <;> rfl
  have htarget : (pcs i).target (pkts i) = none := by
    rcases hpc with h | h <;> rw [h] <;> rfl
  have husable : (status (pkts i).hndl).Usable := by
    rcases hpc with h | h <;> rw [h] at hag
    · rcases hag with ⟨-, hu⟩ | ⟨a, ha⟩
      · exact hu
      · rw [ha]
        trivial
    · obtain ⟨a, ha⟩ := hag
      rw [ha]
      trivial
  obtain ⟨hsame, hlookup⟩ := hI.control.lookup_addr husable
  have hready : ∀ a, status (pkts i).hndl = .ready a n → status (pkts i).hndl = .ready addr n := by
    intro a ha
    rw [ha, ← show w.server.addrMap.index 0 (pkts i).hndl = addr from haddr, hlookup a n ha]
  apply step_use hI (by simp [mapper]) (by simp [handleGiven]) (by simp [hconcerns]) htarget
  · rcases hpc' with rfl | ⟨-, rfl⟩ | ⟨-, rfl⟩ <;> simp [Pc.concerns]
  · rfl
  · rcases hpc' with rfl | ⟨hlt, rfl⟩ | ⟨hfree, rfl⟩
    · trivial
    · rcases hpc with h | h <;> rw [h] at hag
      · rcases hag with ⟨rfl, -⟩ | ⟨a, ha⟩
        · exact absurd hlt (by simp)
        · exact ⟨hready a ha, hlt⟩
      · obtain ⟨a, ha⟩ := hag
        exact ⟨hready a ha, hlt⟩
    · rw [hfree] at hag
      obtain ⟨a, ha⟩ := hag
      exact hready a ha
  · intro h
    change (status h).Matches ((w.server.addrMap.indexed 0 (pkts i).hndl).find h)
      (w.server.hndlNPages.find h)
    rw [hsame]
    exact hI.control.matching h

/-- Steps by which the call responsible for a handle brings it to another stage. -/
lemma step_stage (hI : Interleaved pkts tr pcs status w) {op : ServerOp} {r : op.Res} {pc : Pc}
    {h : Handle} {t : Status ι} (hmapper : mapper (tr ++ [(c, ⟨i, op, r⟩)]) = mapper tr)
    (hgiven : handleGiven (tr ++ [(c, ⟨i, op, r⟩)]) = handleGiven tr)
    (htarget : (pcs i).target (pkts i) = some h) (hpc' : ∀ a, pc ≠ .mapped a) (hstart : pc ≠ .start)
    (hregion : t.region = (status h).region) (hspace : w'.space = w.space)
    (hself : Agrees (Function.update status h t) i (pkts i) pc)
    (hothers : ∀ j, j ≠ i → (pcs j).concerns (pkts j) = some h →
      Agrees (Function.update status h t) j (pkts j) (pcs j))
    (hplaced : t.Placed pkts (Function.update pcs i pc) h)
    (hmatch : t.Matches (w'.server.addrMap.find h) (w'.server.hndlNPages.find h))
    (hsame : ∀ k, k ≠ h → w'.server.addrMap.find k = w.server.addrMap.find k ∧
      w'.server.hndlNPages.find k = w.server.hndlNPages.find k) :
    ∃ status', Interleaved pkts (tr ++ [(c, ⟨i, op, r⟩)]) (Function.update pcs i pc) status' w' := by
  refine ⟨Function.update status h t, ?_⟩
  have hpc : ∀ a, pcs i ≠ .mapped a := by
    intro a ha
    rw [ha] at htarget
    cases htarget
  have hcontrol : Control pkts (Function.update pcs i pc) (Function.update status h t) w'.server := by
    apply hI.control.move _ hself hothers hplaced hmatch hsame
    intro k hk
    exact Option.some.inj (hk.symm.trans htarget)
  exact hI.move hmapper hgiven (by rw [hspace]) hregion hpc hpc' hstart hcontrol

lemma step_setAddr (hI : Interleaved pkts tr pcs status w) {a : Nat} {h : Handle}
    (hpc : pcs i = .numbered a h) (heff : (ServerOp.setAddrMap h a).Effect w () w') :
    ∃ status', Interleaved pkts (tr ++ [(c, ⟨i, .setAddrMap h a, ()⟩)])
      (Function.update pcs i (.addressed h)) status' w' := by
  obtain ⟨os, -, hexec⟩ := heff
  obtain ⟨-, rfl⟩ := Prod.mk.inj hexec
  have hst : status h = .given i a (pkts i).npages := by
    have hag := hI.control.agrees i
    rwa [hpc] at hag
  have hm := hI.control.matching h
  rw [hst] at hm
  apply step_stage (t := .addressed i a (pkts i).npages) hI (by simp [mapper])
    (by simp [handleGiven]) (by rw [hpc]; rfl) (by simp) (by simp) (by rw [hst]; rfl)
  · rfl
  · exact ⟨a, by simp⟩
  · intro j hji hcon
    refine (hI.control.no_other ?_ ?_ hji hcon).elim
    · simp [hst, Status.Usable]
    · simp [hst, Status.tag]
  · simp [Status.Placed]
  · exact ⟨by simp, .inl hm.2⟩
  · intro k hk
    simp [hk]

lemma step_setPages (hI : Interleaved pkts tr pcs status w) {h : Handle}
    (hpc : pcs i = .addressed h)
    (heff : (ServerOp.setHndlNPages h (pkts i).npages).Effect w () w') :
    ∃ status', Interleaved pkts (tr ++ [(c, ⟨i, .setHndlNPages h (pkts i).npages, ()⟩)])
      (Function.update pcs i .done) status' w' := by
  obtain ⟨os, -, hexec⟩ := heff
  obtain ⟨-, rfl⟩ := Prod.mk.inj hexec
  obtain ⟨a, hst⟩ : ∃ a, status h = .addressed i a (pkts i).npages := by
    have hag := hI.control.agrees i
    rwa [hpc] at hag
  have hm := hI.control.matching h
  rw [hst] at hm
  apply step_stage (t := .ready a (pkts i).npages) hI (by simp [mapper])
    (by simp [handleGiven]) (by rw [hpc]; rfl) (by simp) (by simp) (by rw [hst]; rfl)
  · rfl
  · trivial
  · intro j hji hcon
    exact agrees_ready hst hji (hI.control.agrees j) hcon
  · trivial
  · exact ⟨hm.1, by simp⟩
  · intro k hk
    simp [hk]

lemma step_unsetAddr (hI : Interleaved pkts tr pcs status w) (hpc : pcs i = .unmapped)
    (heff : (ServerOp.unsetAddrMap (pkts i).hndl).Effect w () w') :
    ∃ status', Interleaved pkts (tr ++ [(c, ⟨i, .unsetAddrMap (pkts i).hndl, ()⟩)])
      (Function.update pcs i .erasing) status' w' := by
  obtain ⟨os, -, hexec⟩ := heff
  obtain ⟨-, rfl⟩ := Prod.mk.inj hexec
  have hst : status (pkts i).hndl = .unmapped i := by
    have hag := hI.control.agrees i
    rwa [hpc] at hag
  have hm := hI.control.matching (pkts i).hndl
  rw [hst] at hm
  apply step_stage (t := .erasing i) hI (by simp [mapper])
    (by simp [handleGiven]) (by rw [hpc]; rfl) (by simp) (by simp) (by rw [hst]; rfl)
  · rfl
  · simp [Agrees]
  · intro j hji hcon
    refine (hI.control.no_other ?_ ?_ hji hcon).elim
    · simp [hst, Status.Usable]
    · simp [hst, Status.tag]
  · simp [Status.Placed]
  · exact ⟨by simp, hm.2⟩
  · intro k hk
    simp [hk]

lemma step_unsetPages (hI : Interleaved pkts tr pcs status w) (hpc : pcs i = .erasing)
    (heff : (ServerOp.unsetHndlNPages (pkts i).hndl).Effect w () w') :
    ∃ status', Interleaved pkts (tr ++ [(c, ⟨i, .unsetHndlNPages (pkts i).hndl, ()⟩)])
      (Function.update pcs i .done) status' w' := by
  obtain ⟨os, -, hexec⟩ := heff
  obtain ⟨-, rfl⟩ := Prod.mk.inj hexec
  have hst : status (pkts i).hndl = .erasing i := by
    have hag := hI.control.agrees i
    rwa [hpc] at hag
  have hm := hI.control.matching (pkts i).hndl
  rw [hst] at hm
  apply step_stage (t := .absent) hI (by simp [mapper])
    (by simp [handleGiven]) (by rw [hpc]; rfl) (by simp) (by simp) (by rw [hst]; rfl)
  · rfl
  · trivial
  · intro j hji hcon
    refine (hI.control.no_other ?_ ?_ hji hcon).elim
    · simp [hst, Status.Usable]
    · simp [hst, Status.tag]
  · trivial
  · exact ⟨hm.1, by simp⟩
  · intro k hk
    simp [hk]

/-! ### Mapping and unmapping -/

lemma title_eq_inl {tr : CallHistory ι} {i : ι} {h : Handle}
    (ht : title tr i = .inl h) : handleGiven tr i = some h := by
  unfold title at ht
  split at ht
  · next k hk =>
    rw [hk, Sum.inl.inj ht]
  · cases ht

lemma title_of_ungiven {tr : CallHistory ι} {i : ι} (hg : handleGiven tr i = none) :
    title tr i = .inr i := by
  simp [title, hg]

lemma title_eq_inr {tr : CallHistory ι} {i j : ι} (ht : title tr j = .inr i) : j = i := by
  unfold title at ht
  split at ht
  · cases ht
  · exact Sum.inr.inj ht

lemma title_of_given {tr : CallHistory ι} {i : ι} {h : Handle} (hg : handleGiven tr i = some h) :
    title tr i = .inl h := by
  simp [title, hg]

omit [DecidableEq ι] in
lemma mapper_mmap (a len : Nat) (x : Nat) :
    mapper (tr ++ [(c, ⟨i, .mmap len, some a⟩)]) x =
      if inRegion a len x then some i else mapper tr x := by
  simp [mapper]

lemma regionOf_mapped_iff {a b : Nat} {m : UInt32} {k : Handle ⊕ ι} :
    regionOf pkts (Function.update pcs i (.mapped a)) status k = some (b, m) ↔
      (k = .inr i ∧ a = b ∧ (pkts i).npages = m) ∨
        (k ≠ .inr i ∧ regionOf pkts pcs status k = some (b, m)) := by
  cases k with
  | inl h => simp [regionOf]
  | inr j =>
    by_cases hji : j = i
    · subst hji
      simp [regionOf]
    · simp [regionOf, hji]

lemma step_mmapped (hI : Interleaved pkts tr pcs status w) {a : Nat}
    (hsize : (pkts i).size = 4096) (hpages : (pkts i).npages.toNat < 2 ^ 20)
    (hpc : pcs i = .start)
    (heff : (ServerOp.mmap ((pkts i).npages * (pkts i).size).toNat).Effect w (some a) w') :
    ∃ status', Interleaved pkts
      (tr ++ [(c, ⟨i, .mmap ((pkts i).npages * (pkts i).size).toNat, some a⟩)])
      (Function.update pcs i (.mapped a)) status' w' := by
  rw [hsize, toNat_mul_4096 hpages] at heff ⊢
  obtain ⟨os, hadm, hexec⟩ := heff
  obtain ⟨hanswer, rfl⟩ := Prod.mk.inj hexec
  obtain ⟨hlen, hos⟩ := w.space.mmap_some_fst _ _ a hanswer
  obtain ⟨hnull, halign, hbound, hfree⟩ := hadm _ rfl a hos
  rw [pageRound_mul] at hbound
  have hmapped : (w.space.mmap (4096 * (pkts i).npages.toNat) os.mmapAnswer).2.mapped =
      fun x => inRegion a (4096 * (pkts i).npages.toNat) x || w.space.mapped x := by
    rw [hos, AddressSpace.mmap_snd _ hlen]
  have hgiven : handleGiven (tr ++ [(c, ⟨i, .mmap (4096 * (pkts i).npages.toNat), some a⟩)]) =
      handleGiven tr := by
    simp [handleGiven]
  have hungiven := hI.ungiven i (.inl hpc)
  refine ⟨status, ?_, ?_, ?_, ?_, ?_⟩
  · refine hI.control.stay ?_ ?_ hI.control.matching
    · rw [hpc]
      rfl
    · trivial
  · intro k b m x hk hbx hxb
    rw [mapper_mmap]
    rcases regionOf_mapped_iff.mp hk with ⟨rfl, rfl, rfl⟩ | ⟨-, hk⟩
    · rw [if_pos ((inRegion_mul _ _ _).mpr ⟨hbx, hxb⟩)]
      refine ⟨i, rfl, title_of_ungiven ?_⟩
      rw [hgiven, hungiven]
    · obtain ⟨j, hj, ht⟩ := hI.titled k b m x hk hbx hxb
      have hout : inRegion a (4096 * (pkts i).npages.toNat) x ≠ true := by
        intro hin
        have := hfree x hin
        rw [hI.owned x j hj] at this
        cases this
      rw [if_neg hout]
      exact ⟨j, hj, by simpa [title, hgiven] using ht⟩
  · intro x j hj
    rw [mapper_mmap] at hj
    change (w.space.mmap _ os.mmapAnswer).2.mapped x = true
    rw [hmapped]
    by_cases hin : inRegion a (4096 * (pkts i).npages.toNat) x = true
    · simp [hin]
    · rw [if_neg hin] at hj
      simp [hI.owned x j hj]
  · intro k b m hk
    rcases regionOf_mapped_iff.mp hk with ⟨rfl, rfl, rfl⟩ | ⟨-, hk⟩
    · exact ⟨hnull, halign, hbound, hpages⟩
    · exact hI.sound k b m hk
  · intro j hj
    rw [hgiven]
    by_cases hji : j = i
    · rw [hji, hungiven]
    · rw [Function.update_of_ne hji] at hj
      exact hI.ungiven j hj

lemma handleGiven_newHandle (n : UInt32) :
    handleGiven (tr ++ [(c, ⟨i, .getNewHandle, n⟩)]) =
      Function.update (handleGiven tr) i (some (handleOfCount n)) := by
  simp [handleGiven]

lemma regionOf_numbered_iff {a b : Nat} {m : UInt32} {h : Handle} {k : Handle ⊕ ι} :
    regionOf pkts (Function.update pcs i (.numbered a h))
        (Function.update status h (.given i a (pkts i).npages)) k = some (b, m) ↔
      (k = .inl h ∧ a = b ∧ (pkts i).npages = m) ∨
        (k ≠ .inl h ∧ k ≠ .inr i ∧ regionOf pkts pcs status k = some (b, m)) := by
  cases k with
  | inl g =>
    by_cases hg : g = h
    · subst hg
      simp [regionOf, Status.region]
    · simp [regionOf, hg]
  | inr j =>
    by_cases hji : j = i
    · subst hji
      rw [regionOf_inr_none (by simp)]
      simp
    · simp [regionOf, hji]

lemma step_newHandle (hI : Interleaved pkts tr pcs status w) {a : Nat} {n : UInt32}
    (hpc : pcs i = .mapped a) (heff : ServerOp.getNewHandle.Effect w n w')
    (haddr : w.server.addrMap.find (handleOfCount n) = none)
    (hnpages : w.server.hndlNPages.find (handleOfCount n) = none)
    (hnot : ∀ j b, pcs j ≠ .numbered b (handleOfCount n)) :
    ∃ status', Interleaved pkts (tr ++ [(c, ⟨i, .getNewHandle, n⟩)])
      (Function.update pcs i (.numbered a (handleOfCount n))) status' w' := by
  obtain ⟨os, -, hexec⟩ := heff
  obtain ⟨-, rfl⟩ := Prod.mk.inj hexec
  have hst := hI.control.absent haddr hnpages hnot
  have hmapper : mapper (tr ++ [(c, ⟨i, .getNewHandle, n⟩)]) = mapper tr := by simp [mapper]
  have hungiven := hI.ungiven i (.inr ⟨a, hpc⟩)
  have hregion : regionOf pkts pcs status (.inr i) = some (a, (pkts i).npages) := by
    simp [regionOf, hpc]
  refine ⟨Function.update status (handleOfCount n) (.given i a (pkts i).npages),
    ?_, ?_, ?_, ?_, ?_⟩
  · apply hI.control.move
    · intro k hk
      rw [hpc] at hk
      cases hk
    · simp [Agrees]
    · intro j hji hcon
      refine (hI.control.no_other ?_ ?_ hji hcon).elim
      · simp [hst, Status.Usable]
      · simp [hst, Status.tag]
    · simp [Status.Placed]
    · exact ⟨haddr, hnpages⟩
    · intro k hk
      exact ⟨rfl, rfl⟩
  · intro k b m x hk hbx hxb
    rw [hmapper]
    rcases regionOf_numbered_iff.mp hk with ⟨rfl, rfl, rfl⟩ | ⟨-, hki, hk⟩
    · obtain ⟨j, hj, ht⟩ := hI.titled (.inr i) a _ x hregion hbx hxb
      obtain rfl := title_eq_inr ht
      refine ⟨j, hj, title_of_given ?_⟩
      rw [handleGiven_newHandle, Function.update_self]
    · obtain ⟨j, hj, ht⟩ := hI.titled k b m x hk hbx hxb
      have hji : j ≠ i := by
        rintro rfl
        exact hki (ht.symm.trans (title_of_ungiven hungiven))
      refine ⟨j, hj, ?_⟩
      rw [title, handleGiven_newHandle, Function.update_of_ne hji]
      exact ht
  · rw [hmapper]
    exact hI.owned
  · intro k b m hk
    rcases regionOf_numbered_iff.mp hk with ⟨rfl, rfl, rfl⟩ | ⟨-, -, hk⟩
    · exact hI.sound _ _ _ hregion
    · exact hI.sound k b m hk
  · intro j hj
    have hji : j ≠ i := by
      rintro rfl
      simp at hj
    rw [Function.update_of_ne hji] at hj
    rw [handleGiven_newHandle, Function.update_of_ne hji]
    exact hI.ungiven j hj

omit [DecidableEq ι] in
lemma mapper_munmap (a len : Nat) (x : Nat) :
    mapper (tr ++ [(c, ⟨i, .munmap a len, true⟩)]) x =
      if inRegion a len x then none else mapper tr x := by
  simp [mapper]

lemma regionOf_unmapped_iff {b : Nat} {m : UInt32} {h : Handle} {k : Handle ⊕ ι}
    (hpc : ∀ a, pcs i ≠ .mapped a) :
    regionOf pkts (Function.update pcs i .unmapped)
        (Function.update status h (.unmapped i)) k = some (b, m) ↔
      k ≠ .inl h ∧ regionOf pkts pcs status k = some (b, m) := by
  cases k with
  | inl g =>
    by_cases hg : g = h
    · subst hg
      simp [regionOf, Status.region]
    · simp [regionOf, hg]
  | inr j =>
    by_cases hji : j = i
    · subst hji
      rw [regionOf_inr_none (by simp), regionOf_inr_none hpc]
      simp
    · simp [regionOf, hji]

lemma step_munmapped (hI : Interleaved pkts tr pcs status w) {a : Nat} {n : UInt32}
    (hsize : (pkts i).size = 4096) (hpc : pcs i = .freeLocated n a)
    (heff : (ServerOp.munmap a (n * (pkts i).size).toNat).Effect w true w')
    (hapart : PcsApart pkts (Function.update pcs i .unmapped)) :
    ∃ status', Interleaved pkts (tr ++ [(c, ⟨i, .munmap a (n * (pkts i).size).toNat, true⟩)])
      (Function.update pcs i .unmapped) status' w' := by
  have hst : status (pkts i).hndl = .ready a n := by
    have hag := hI.control.agrees i
    rwa [hpc] at hag
  have hregion : regionOf pkts pcs status (.inl (pkts i).hndl) = some (a, n) := by
    simp [regionOf, hst, Status.region]
  obtain ⟨-, -, -, hsmall⟩ := hI.sound _ _ _ hregion
  rw [hsize, toNat_mul_4096 hsmall] at heff ⊢
  obtain ⟨os, -, hexec⟩ := heff
  obtain ⟨hanswer, rfl⟩ := Prod.mk.inj hexec
  obtain ⟨-, -, hmapped⟩ := AddressSpace.munmap_true hanswer
  have hm := hI.control.matching (pkts i).hndl
  rw [hst] at hm
  have hgiven : handleGiven (tr ++ [(c, ⟨i, .munmap a (4096 * n.toNat), true⟩)]) = handleGiven tr := by
    simp [handleGiven]
  have hpc' : ∀ b, pcs i ≠ .mapped b := by simp [hpc]
  refine ⟨Function.update status (pkts i).hndl (.unmapped i), ?_, ?_, ?_, ?_, ?_⟩
  · apply hI.control.move
    · intro k hk
      rw [hpc] at hk
      cases hk
    · simp [Agrees]
    · intro j hji hcon
      have huses := uses_of_concerns (hI.control.agrees j) hcon (by simp [hst, Status.tag])
      have hsep := hapart i j (Ne.symm hji) huses.1.symm (Function.update_self ..)
      rw [Function.update_of_ne hji, hcon, huses.2] at hsep
      simp at hsep
    · simp [Status.Placed]
    · exact ⟨by simp [hm.1], by simp [hm.2]⟩
    · intro k hk
      exact ⟨rfl, rfl⟩
  · intro k b m x hk hbx hxb
    obtain ⟨hki, hk⟩ := (regionOf_unmapped_iff hpc').mp hk
    obtain ⟨j, hj, ht⟩ := hI.titled k b m x hk hbx hxb
    have hout : inRegion a (4096 * n.toNat) x ≠ true := by
      intro hin
      obtain ⟨hax, hxa⟩ := (inRegion_mul _ _ _).mp hin
      obtain ⟨j', hj', ht'⟩ := hI.titled _ a n x hregion hax hxa
      obtain rfl : j = j' := Option.some.inj (hj.symm.trans hj')
      exact hki (ht.symm.trans ht')
    rw [mapper_munmap, if_neg hout]
    exact ⟨j, hj, by simpa [title, hgiven] using ht⟩
  · intro x j hj
    rw [mapper_munmap] at hj
    change (w.space.munmap _ _ os.munmapAnswer).2.mapped x = true
    by_cases hin : inRegion a (4096 * n.toNat) x = true
    · rw [if_pos hin] at hj
      cases hj
    · rw [if_neg hin] at hj
      simp [hmapped, hin, hI.owned x j hj]
  · intro k b m hk
    exact hI.sound k b m ((regionOf_unmapped_iff hpc').mp hk).2
  · intro j hj
    have hji : j ≠ i := by
      rintro rfl
      simp at hj
    rw [Function.update_of_ne hji] at hj
    rw [hgiven]
    exact hI.ungiven j hj

/-- Every step keeps the invariant, whatever the call does. -/
lemma interleaved_step (hI : Interleaved pkts tr pcs status w) (hsize : ∀ i, (pkts i).size = 4096)
    (hpages : ∀ i, (pkts i).npages.toNat < 2 ^ 20) {op : ServerOp} {r : op.Res} {pc : Pc}
    (hflow : Flow (pkts i) (pcs i) op r pc) (heff : op.Effect w r w')
    (hapart : PcsApart pkts (Function.update pcs i pc))
    (hfresh : op = .getNewHandle →
      w.server.addrMap.find (handleOfCount w.server.handleCount) = none ∧
      w.server.hndlNPages.find (handleOfCount w.server.handleCount) = none ∧
      ∀ j a, pcs j ≠ .numbered a (handleOfCount w.server.handleCount)) :
    ∃ status', Interleaved pkts (tr ++ [(c, ⟨i, op, r⟩)]) (Function.update pcs i pc) status' w' := by
  generalize hpc : pcs i = pc₀ at hflow
  cases hflow with
  | mmapFailed =>
    obtain ⟨os, -, hexec⟩ := heff
    obtain ⟨hanswer, rfl⟩ := Prod.mk.inj hexec
    refine hI.stay (by simp [mapper]) (by simp [handleGiven]) ?_ (by rw [hpc]; rfl) (by simp [hpc])
      (by simp) (by simp) trivial hI.control.matching
    change (w.space.mmap _ os.mmapAnswer).2.mapped = w.space.mapped
    rw [AddressSpace.mmap_none_snd _ _ _ hanswer]
  | mmapped a => exact step_mmapped hI (hsize i) (hpages i) hpc heff
  | newHandle a n =>
    obtain ⟨haddr, hnpages, hnot⟩ := hfresh rfl
    have hn : w.server.handleCount = n := by
      obtain ⟨os, -, hexec⟩ := heff
      exact (Prod.mk.inj hexec).1
    rw [hn] at haddr hnpages hnot
    exact step_newHandle hI hpc heff haddr hnpages hnot
  | setAddr a h => exact step_setAddr hI hpc heff
  | setPages h => exact step_setPages hI hpc heff
  | missing => exact step_check hI (.inl hpc) (.inl rfl) heff hapart
  | found => exact step_check hI (.inl hpc) (.inr (.inr ⟨rfl, .inl rfl⟩)) heff hapart
  | size n => exact step_size hI (.inl hpc) (.inr (.inl rfl)) heff
  | outside n a h => exact step_locate hI (.inl hpc) (.inl rfl) heff
  | locate n a h => exact step_locate hI (.inl hpc) (.inr (.inl ⟨h, rfl⟩)) heff
  | copyFrom n a data =>
    obtain ⟨os, -, hexec⟩ := heff
    obtain ⟨-, rfl⟩ := Prod.mk.inj hexec
    exact step_use hI (by simp [mapper]) (by simp [handleGiven]) (by simp [hpc, Pc.concerns])
      (by rw [hpc]; rfl) (.inl rfl) rfl trivial hI.control.matching
  | copyTo n a data =>
    obtain ⟨os, -, hexec⟩ := heff
    obtain ⟨-, rfl⟩ := Prod.mk.inj hexec
    refine step_use hI (by simp [mapper]) (by simp [handleGiven]) (by simp [hpc, Pc.concerns])
      (by rw [hpc]; rfl) (.inl rfl) ?_ trivial hI.control.matching
    rfl
  | foundFree => exact step_check hI (.inl hpc) (.inr (.inl rfl)) heff hapart
  | gone => exact step_check hI (.inr hpc) (.inl rfl) heff hapart
  | recheck => exact step_check hI (.inr hpc) (.inr (.inr ⟨rfl, .inr rfl⟩)) heff hapart
  | noPages => exact step_size hI (.inr hpc) (.inl rfl) heff
  | sizeFree n h => exact step_size hI (.inr hpc) (.inr (.inr ⟨h, rfl⟩)) heff
  | locateFree n a => exact step_locate hI (.inr hpc) (.inr (.inr ⟨hpc, rfl⟩)) heff
  | munmapFailed n a =>
    obtain ⟨os, -, hexec⟩ := heff
    obtain ⟨hanswer, rfl⟩ := Prod.mk.inj hexec
    refine step_use hI (by simp [mapper]) (by simp [handleGiven]) (by simp [hpc, Pc.concerns])
      (by rw [hpc]; rfl) (.inl rfl) ?_ trivial hI.control.matching
    change (w.space.munmap _ _ os.munmapAnswer).2.mapped = w.space.mapped
    rw [AddressSpace.munmap_false_snd _ _ _ _ hanswer]
  | munmapped n a => exact step_munmapped hI (hsize i) hpc heff hapart
  | unsetAddr => exact step_unsetAddr hI hpc heff
  | unsetPages => exact step_unsetPages hI hpc heff

lemma page_mapped (hI : Interleaved pkts tr pcs status w) (hsize : (pkts i).size = 4096)
    {n : UInt32} {a : Nat} (hpc : pcs i = .located n a) :
    ∀ x, Server.addrWithOffset a (pkts i).size (pkts i).offset ≤ x →
      x < Server.addrWithOffset a (pkts i).size (pkts i).offset + 4096 → w.space.mapped x = true := by
  have hag := hI.control.agrees i
  rw [hpc] at hag
  obtain ⟨hst, hlt⟩ := hag
  have hregion : regionOf pkts pcs status (.inl (pkts i).hndl) = some (a, n) := by
    simp [regionOf, hst, Status.region]
  obtain ⟨-, -, hbound, hsmall⟩ := hI.sound _ _ _ hregion
  rw [hsize, addrWithOffset_page hsmall hlt hbound]
  intro x hax hxa
  have hlt' : (pkts i).offset.toNat < n.toNat := UInt32.lt_iff_toNat_lt.mp hlt
  obtain ⟨j, hj, -⟩ := hI.titled _ a n x hregion (by omega) (by omega)
  exact hI.owned x j hj

lemma safeStep_of_flow (hI : Interleaved pkts tr pcs status w) (hsize : ∀ i, (pkts i).size = 4096)
    {op : ServerOp} {r : op.Res} {pc : Pc} (hflow : Flow (pkts i) (pcs i) op r pc) :
    SafeStep pkts tr w ⟨i, op, r⟩ := by
  generalize hpc : pcs i = pc₀ at hflow
  have hfree : ∀ n a, pcs i = .freeLocated n a → ∀ x, inRegion a (n * (pkts i).size).toNat x = true →
      w.space.mapped x = true ∧ ∃ j, mapper tr x = some j ∧ handleGiven tr j = some (pkts i).hndl := by
    intro n a hpc x hin
    have hst := hI.control.agrees i
    rw [hpc] at hst
    have hregion : regionOf pkts pcs status (.inl (pkts i).hndl) = some (a, n) := by
      simp [regionOf, show status (pkts i).hndl = _ from hst, Status.region]
    obtain ⟨-, -, -, hsmall⟩ := hI.sound _ _ _ hregion
    rw [hsize, toNat_mul_4096 hsmall, inRegion_mul] at hin
    obtain ⟨j, hj, ht⟩ := hI.titled _ a n x hregion hin.1 hin.2
    exact ⟨hI.owned x j hj, j, hj, title_eq_inl ht⟩
  cases hflow with
  | copyFrom n a data => exact page_mapped hI (hsize i) hpc
  | copyTo n a data => exact page_mapped hI (hsize i) hpc
  | munmapFailed n a => exact hfree n a hpc
  | munmapped n a => exact hfree n a hpc
  | _ => trivial

end Steps

section Runs

variable {pkts : ι → Packet} {mem : Nat → UInt8}

/-- All calls keep to their control flow, and the invariant holds of where they stand. -/
def OnCourse (pkts : ι → Packet) (tr : CallHistory ι) (c : Calls ι) : Prop :=
  ∃ pcs status, (∀ i, (c.threads i).Follows (Flow (pkts i)) (pcs i)
    (fun _ pc => pc = .done ∨ pc = .start)) ∧ Interleaved pkts tr pcs status c.state

lemma onCourse_init : OnCourse pkts [] (Calls.init pkts (Host.fresh mem)) := by
  refine ⟨fun _ => .start, fun _ => .absent, fun i => follows_handle (pkts i), ?_⟩
  constructor
  · exact ⟨fun _ => ⟨rfl, rfl⟩, fun _ => trivial, fun _ => trivial⟩
  · intro k a n x hk
    cases k <;> cases hk
  · intro x i hx
    cases hx
  · intro k a n hk
    cases k <;> cases hk
  · intro i _
    rfl

omit [DecidableEq ι] in
lemma pcsApart_of_apart {c : Calls ι} {pcs : ι → Pc}
    (hfollows : ∀ i, (c.threads i).Follows (Flow (pkts i)) (pcs i)
      (fun _ pc => pc = .done ∨ pc = .start)) (hapart : Apart pkts c) : PcsApart pkts pcs := by
  intro j k hjk hh hj
  have hunmapped := hfollows j
  rw [hj] at hunmapped
  have hnot := hapart j k hjk hh (erasesAddr_of_follows hunmapped)
  by_contra hcon
  rw [not_or, not_not] at hcon
  have huse := usesHandle_of_follows (hfollows k) hcon.1 hcon.2
  rw [huse] at hnot
  cases hnot

lemma onCourse_step {tr : CallHistory ι} {c c' : Calls ι} {a : Action ι ServerOp.Res}
    (hsize : ∀ i, (pkts i).size = 4096) (hpages : ∀ i, (pkts i).npages.toNat < 2 ^ 20)
    (hT : OnCourse pkts tr c) (hapart : Apart pkts c') (hfresh : FreshHandle c a.op)
    (hs : Calls.Step c a c') : OnCourse pkts (tr ++ [(c, a)]) c' := by
  obtain ⟨pcs, status, hfollows, hI⟩ := hT
  have hstep : Pool.Step (fun _ op => op.Effect) c a c' := hs
  obtain ⟨pc, hflow, hfollows'⟩ := hstep.follows hfollows
  obtain ⟨next, -, heff, -⟩ := hstep
  obtain ⟨i, op, r⟩ := a
  have hpcs := pcsApart_of_apart hfollows' hapart
  obtain ⟨status', hI'⟩ := interleaved_step (c := c) hI hsize hpages hflow heff hpcs (by
    rintro rfl
    obtain ⟨haddr, hnpages, hnot⟩ := hfresh rfl
    refine ⟨haddr, hnpages, fun j b hj => ?_⟩
    have hnumbered := hfollows j
    rw [hj] at hnumbered
    exact hnot j (entersHandle_of_follows hnumbered))
  exact ⟨_, status', hfollows', hI'⟩

lemma safeStep_of_onCourse {tr : CallHistory ι} {c c' : Calls ι} {a : Action ι ServerOp.Res}
    (hsize : ∀ i, (pkts i).size = 4096) (hT : OnCourse pkts tr c) (hs : Calls.Step c a c') :
    SafeStep pkts tr c.state a := by
  obtain ⟨pcs, status, hfollows, hI⟩ := hT
  have hstep : Pool.Step (fun _ op => op.Effect) c a c' := hs
  obtain ⟨pc, hflow, -⟩ := hstep.follows hfollows
  exact safeStep_of_flow hI hsize hflow

omit [DecidableEq ι] in
lemma quiescent_of_nextOp {c : Calls ι} (hdone : ∀ i, (nextOp (c.threads i)).isNone = true) :
    c.Quiescent pkts := by
  intro i
  cases hi : c.threads i with
  | pure reply => exact .inr ⟨reply, rfl⟩
  | call op next => simpa [hi, nextOp] using hdone i

lemma consistent_of_onCourse {tr : CallHistory ι} {c : Calls ι} (hT : OnCourse pkts tr c)
    (hq : c.Quiescent pkts) : Consistent c.state := by
  obtain ⟨pcs, status, hfollows, hI⟩ := hT
  have hidle : ∀ {i pc}, pcs i = pc → pc.concerns (pkts i) = none := by
    rintro i _ rfl
    exact concerns_of_quiescent (hfollows i) (hq i)
  have hstage : ∀ h, (c.state.server.addrMap.find h = none ∧ c.state.server.hndlNPages.find h = none) ∨
      ∃ a n, c.state.server.addrMap.find h = some a ∧ c.state.server.hndlNPages.find h = some n ∧
        regionOf pkts pcs status (.inl h) = some (a, n) := by
    intro h
    have hm := hI.control.matching h
    have hp := hI.control.placed h
    cases hst : status h with
    | absent =>
      rw [hst] at hm
      exact .inl hm
    | ready a n =>
      rw [hst] at hm
      exact .inr ⟨a, n, hm.1, hm.2, by simp [regionOf, hst, Status.region]⟩
    | given i a n =>
      rw [hst] at hp
      cases hidle hp
    | addressed i a n =>
      rw [hst] at hp
      cases hidle hp
    | unmapped i =>
      rw [hst] at hp
      cases hidle hp.1
    | erasing i =>
      rw [hst] at hp
      cases hidle hp.1
  constructor
  · intro h
    rcases hstage h with ⟨ha, hn⟩ | ⟨a, n, ha, hn, -⟩
    · simp [UnorderedMap.Contains, ha, hn]
    · simp [UnorderedMap.Contains, ha, hn]
  · intro h a ha
    rcases hstage h with ⟨hnone, -⟩ | ⟨b, n, hb, -, hregion⟩
    · rw [hnone] at ha
      cases ha
    · obtain rfl : a = b := Option.some.inj (ha.symm.trans hb)
      exact (hI.sound _ _ _ hregion).1
  · intro h a n ha hn x hx
    rcases hstage h with ⟨hnone, -⟩ | ⟨b, m, hb, hm, hregion⟩
    · rw [hnone] at ha
      cases ha
    · obtain rfl : a = b := Option.some.inj (ha.symm.trans hb)
      obtain rfl : n = m := Option.some.inj (hn.symm.trans hm)
      obtain ⟨hax, hxa⟩ := (inRegion_mul _ _ _).mp hx
      obtain ⟨j, hj, -⟩ := hI.titled _ a n x hregion hax hxa
      exact hI.owned x j hj

/-- In every run of any number of calls in which no call is past its check of a handle while
another call has unmapped its region and not erased its address, and no handle in use is
handed out: every `memcpy` touches mapped memory only, every `munmap` unmaps memory mapped for
the handle being freed, and in every state in which no call is in progress the two maps agree
and all recorded regions are mapped. -/
theorem concurrent_calls_consistent (hsize : ∀ i, (pkts i).size = 4096)
    (hpages : ∀ i, (pkts i).npages.toNat < 2 ^ 20) {tr : CallHistory ι} {c : Calls ι}
    (hr : Run Calls.Step (Calls.init pkts (Host.fresh mem)) tr c)
    (hapart : ∀ x ∈ tr, Apart pkts x.1) (hlast : Apart pkts c)
    (hfresh : ∀ x ∈ tr, FreshHandle x.1 x.2.op) :
    (∀ h x, h ++ [x] <+: tr → SafeStep pkts h x.1.state x.2 ∧
      (x.1.Quiescent pkts → Consistent x.1.state)) ∧
    (c.Quiescent pkts → Consistent c.state) := by
  have honCourse : ∀ {h : CallHistory ι} {u : Calls ι},
      Run Calls.Step (Calls.init pkts (Host.fresh mem)) h u → h <+: tr → Apart pkts u → OnCourse pkts h u := by
    intro h u hrun hp
    have hkeep : ∀ h t e v, (Apart pkts t → OnCourse pkts h t) → (Apart pkts t ∧ FreshHandle t e.op) →
        Calls.Step t e v → Apart pkts v → OnCourse pkts (h ++ [(t, e)]) v :=
      fun h t e v hT hC hs hv => onCourse_step hsize hpages (hT hC.1) hv hC.2 hs
    refine hrun.history_invariant (I := fun h t => Apart pkts t → OnCourse pkts h t) hkeep
      (fun _ => onCourse_init) ?_
    intro g x hg
    have hmem : x ∈ tr := (hg.trans hp).subset (List.mem_append_right _ List.mem_cons_self)
    exact ⟨hapart x hmem, hfresh x hmem⟩
  constructor
  · intro h x hp
    obtain ⟨hrun, u, hs⟩ := hr.before h x hp
    have hmem : x ∈ tr := hp.subset (List.mem_append_right _ List.mem_cons_self)
    have hT := honCourse hrun ((List.prefix_append h [x]).trans hp) (hapart x hmem)
    exact ⟨safeStep_of_onCourse hsize hT hs, consistent_of_onCourse hT⟩
  · intro hq
    exact consistent_of_onCourse (honCourse hr List.prefix_rfl hlast) hq

lemma calls_step_of_advance {os : Os} {c : Calls ι} {i : ι} {x : Action ι ServerOp.Res × Calls ι}
    (h : c.advance os i = some x)
    (hos : ∀ len, x.1.op = .mmap len → c.state.space.MmapAnswer len os.mmapAnswer) :
    Calls.Step c x.1 x.2 := by
  cases hthread : c.threads i with
  | pure a => simp [Calls.advance, hthread] at h
  | call op next =>
    simp only [Calls.advance, hthread, Option.some.injEq] at h
    subst h
    exact ⟨next, hthread, ⟨os, hos, rfl⟩, rfl⟩

lemma run_of_execute_calls {order : List (Os × ι)} {c : Calls ι} {x : CallHistory ι × Calls ι}
    (h : c.execute order = some x) (hos : ∀ y ∈ order, y.1.mmapAnswer = none) :
    Run Calls.Step c x.1 x.2 := by
  induction order generalizing c x with
  | nil =>
    obtain rfl := Option.some.inj h
    exact Run.nil
  | cons y order ih =>
    obtain ⟨z, hz, hrest⟩ := Option.bind_eq_some_iff.mp h
    obtain ⟨v, hv, rfl⟩ := Option.map_eq_some_iff.mp hrest
    rw [List.forall_mem_cons] at hos
    refine Run.cons (calls_step_of_advance hz ?_) (ih hv hos.2)
    intro len _ a ha
    rw [hos.1] at ha
    cases ha

end Runs

section Example

/-- A call that allocates a page, one that reads it, and one that frees it. -/
def threeCalls : Fin 3 → Packet
  | 0 => ⟨0, 1, 4096, 0, 0, zeroPage, 0⟩
  | 1 => ⟨0, 0, 4096, 0, 1, zeroPage, 0⟩
  | 2 => ⟨0, 0, 4096, 0, 3, zeroPage, 0⟩

def threeCallsInit : Calls (Fin 3) := Calls.init threeCalls (Host.fresh (fun _ => 0))

/-- The state and the step once the first call has mapped its page. -/
def pageMapped : Option (Action (Fin 3) ServerOp.Res × Calls (Fin 3)) :=
  threeCallsInit.advance ⟨some 4096, true⟩ 0

/-- The free checks its handle and looks it up while the page is read, and unmaps it afterwards. -/
def freeWhileRead : List (Os × Fin 3) :=
  [0, 0, 0, 1, 2, 1, 2, 1, 2, 1, 2, 2, 2, 2].map (fun i => (⟨none, true⟩, i))

/-- The read checks its handle before the free begins and looks it up after the free. -/
def freeAfterCheck : List (Os × Fin 3) :=
  [0, 0, 0, 1, 2, 2, 2, 2, 2, 2, 2, 1, 1].map (fun i => (⟨none, true⟩, i))

lemma run_from_pageMapped {order : List (Os × Fin 3)} (hos : ∀ y ∈ order, y.1.mmapAnswer = none)
    {y : CallHistory (Fin 3) × Calls (Fin 3)}
    (h : (pageMapped.bind (fun x => (x.2.execute order).map
      (fun z => ((threeCallsInit, x.1) :: z.1, z.2)))) = some y) :
    Run Calls.Step threeCallsInit y.1 y.2 := by
  obtain ⟨x, hx, hrest⟩ := Option.bind_eq_some_iff.mp h
  obtain ⟨z, hz, rfl⟩ := Option.map_eq_some_iff.mp hrest
  refine Run.cons (calls_step_of_advance hx ?_) (run_of_execute_calls hz hos)
  have hop : pageMapped.map (fun x => x.1.op) = some (.mmap 4096) := rfl
  rw [hx, Option.map_some, Option.some.injEq] at hop
  intro len hlen
  obtain rfl : 4096 = len := by simpa [hop] using hlen
  exact fresh_mmapAnswer _ (by decide)

theorem overlapping_calls_consistent :
    ∃ tr c, Run Calls.Step threeCallsInit tr c ∧ tr.length = 15 ∧ c.Quiescent threeCalls ∧
      (∀ x ∈ tr, Apart threeCalls x.1) ∧ Apart threeCalls c ∧ (∀ x ∈ tr, FreshHandle x.1 x.2.op) ∧
      (∀ h x, h ++ [x] <+: tr → SafeStep threeCalls h x.1.state x.2) ∧ Consistent c.state := by
  have hsome : ((pageMapped.bind (fun x => (x.2.execute freeWhileRead).map
      (fun z => ((threeCallsInit, x.1) :: z.1, z.2)))).map (fun y =>
        (y.1.length, decide (∀ x ∈ y.1, Apart threeCalls x.1), decide (Apart threeCalls y.2),
          decide (∀ x ∈ y.1, FreshHandle x.1 x.2.op),
          decide (∀ i, (nextOp (y.2.threads i)).isNone = true)))) =
            some (15, true, true, true, true) := by
    decide +kernel
  obtain ⟨⟨tr, c⟩, hexec, hfacts⟩ := Option.map_eq_some_iff.mp hsome
  simp only [Prod.mk.injEq, decide_eq_true_eq] at hfacts
  obtain ⟨hlen, hapart, hlast, hfresh, hdone⟩ := hfacts
  have hquiet : c.Quiescent threeCalls := quiescent_of_nextOp hdone
  have hrun := run_from_pageMapped (by simp [freeWhileRead]) hexec
  have hall := concurrent_calls_consistent (by decide) (by decide) hrun hapart hlast hfresh
  exact ⟨tr, c, hrun, hlen, hquiet, hapart, hlast, hfresh, fun h x hp => (hall.1 h x hp).1,
    hall.2 hquiet⟩

/-- The lookups of the read insert a null address for the handle that was freed. -/
theorem read_racing_free_leaves_null :
    ∃ tr c, Run Calls.Step threeCallsInit tr c ∧ c.Quiescent threeCalls ∧ ¬Consistent c.state := by
  have hsome : ((pageMapped.bind (fun x => (x.2.execute freeAfterCheck).map
      (fun z => ((threeCallsInit, x.1) :: z.1, z.2)))).map (fun y =>
        (decide (∀ i, (nextOp (y.2.threads i)).isNone = true),
          y.2.state.server.addrMap.find 0))) = some (true, some 0) := by
    decide +kernel
  obtain ⟨⟨tr, c⟩, hexec, hfacts⟩ := Option.map_eq_some_iff.mp hsome
  simp only [Prod.mk.injEq, decide_eq_true_eq] at hfacts
  obtain ⟨hdone, hnull⟩ := hfacts
  refine ⟨tr, c, run_from_pageMapped (by simp [freeAfterCheck]) hexec, quiescent_of_nextOp hdone, ?_⟩
  intro hc
  exact hc.notNull 0 0 hnull rfl

end Example

end RemoteMemoryPool.Proofs
