import RemoteMemoryPool.Proofs.ServerSpec

/-!
# Replies of the server

The maps of the server in every state it reaches, whatever packets it is sent and
whatever `mmap` and `munmap` answer; that a failing request leaves the server and the
packet as they were; and when the `error` field of a reply tells success from failure.
-/

namespace RemoteMemoryPool.Proofs

open Interaction Transition

lemma nonNull_run_inStep {mem : Nat → UInt8} {tr : List (Host × Call)} {w : Host}
    (h : Run Host.NonNullStep (Host.fresh mem) tr w) : InStep w.server := by
  have hstep : ∀ s e t, InStep s.server → True → Host.NonNullStep s e t → InStep t.server := by
    intro s e t hs _ hst
    have hi := handle_inStep_of_ne (p := e.packet) (fun _ a hm => hst.1 a hm) hs
    rwa [hst.2] at hi
  exact h.invariant (C := fun _ _ => True) hstep (fresh_inStep mem) (fun _ _ => trivial)

/-- An `alloc` of one page that arrives with the given error field. -/
def onePage (error : UInt32) : Packet :=
  { hndl := 0, npages := 1, size := 4096, offset := 0, action := 0, data := zeroPage, error := error }

/-- A fresh server handles `onePage`, and the kernel maps the page at 4096. -/
def onePageHost : Host := ((Host.fresh fun _ => 0).handleAll [(⟨some 4096, true⟩, onePage 0)]).2

lemma some_4096_nonNull : (⟨some 4096, true⟩ : Os).NonNull := by
  intro a ha
  obtain rfl : 4096 = a := Option.some.inj ha
  decide

lemma onePageHost_run : Run Host.NonNullStep (Host.fresh fun _ => 0)
    ((Host.fresh fun _ => 0).handleAll [(⟨some 4096, true⟩, onePage 0)]).1 onePageHost := by
  refine handleAll_run_of (A := fun _ c => c.os.NonNull) _ _ ?_
  intro x hx
  obtain rfl : x = _ := List.mem_singleton.mp hx
  exact some_4096_nonNull

lemma onePageHost_live : Live onePageHost.server 0 4096 1 := ⟨by decide +kernel, by decide +kernel⟩

/-- A lookup through `operator[]` leaves the maps as they are. -/
def NoDefaultEntry (os : Os) (x : Host × ServerOp) : Prop :=
  ∀ k, x.2 = .getAddrMap k ∨ x.2 = .getHndlNPages k → (x.2.exec os x.1).2 = x.1

/-- A handle asked for is there, and a page count looked up is not 0. -/
def PassesCheck (os : Os) (x : Host × ServerOp) : Prop :=
  (∀ k, x.2 = .containsKey k → (ServerOp.exec os (.containsKey k) x.1).1 = true) ∧
    ∀ k, x.2 = .getHndlNPages k → (ServerOp.exec os (.getHndlNPages k) x.1).1 ≠ 0

section Lookups

variable (os : Os) {w : Host}

lemma noDefaultEntry_getAddrMap {k : Handle} {a : Nat} {n : UInt32} (hl : Live w.server k a n) :
    NoDefaultEntry os (w, .getAddrMap k) := by
  intro k' _
  exact congrArg Prod.snd (run_getAddrMap_live os w hl)

lemma noDefaultEntry_getHndlNPages {k : Handle} {a : Nat} {n : UInt32}
    (hl : Live w.server k a n) : NoDefaultEntry os (w, .getHndlNPages k) := by
  intro k' _
  exact congrArg Prod.snd (run_getHndlNPages_live os w hl)

lemma performed_alloc_noDefaultEntry (w : Host) (npages size : UInt32) :
    ∀ x ∈ (Server.alloc npages size).performed (ServerOp.exec os) w, NoDefaultEntry os x := by
  have hno : (Server.alloc npages size).OnlyPerforms
      (fun op => ∀ k, op ≠ .getAddrMap k ∧ op ≠ .getHndlNPages k) := by
    refine .bind ⟨by simp, fun _ => trivial⟩ ?_
    rintro (_ | a)
    · exact .pure _
    · refine .bind ⟨by simp, fun _ => trivial⟩ fun n => .bind ⟨by simp, fun _ => trivial⟩ fun _ => ?_
      exact .bind ⟨by simp, fun _ => trivial⟩ fun _ => .pure _
  intro x hx k hk
  obtain ⟨h1, h2⟩ := hno.performed _ w x hx k
  rcases hk with hk | hk
  · exact absurd hk h1
  · exact absurd hk h2

lemma performed_free_live {h : Handle} {a : Nat} {n : UInt32} (hl : Live w.server h a n)
    (hn : n ≠ 0) (size : UInt32) :
    ∃ rest, (Server.free h size).performed (ServerOp.exec os) w =
      [(w, .containsKey h), (w, .getHndlNPages h), (w, .getAddrMap h),
        (w, .munmap a (n * size).toNat)] ++ rest ∧
      ∀ x ∈ rest, x.2 = .unsetAddrMap h ∨ x.2 = .unsetHndlNPages h := by
  have hc : w.server.addrMap.Contains h := by simp [UnorderedMap.Contains, hl.1]
  simp only [Server.free, Program.performed_bind, performed_containsKey, run_containsKey, hc,
    decide_true, if_true, performed_getHndlNPages, run_getHndlNPages_live os w hl, hn, if_false,
    performed_getAddrMap, run_getAddrMap_live os w hl, run_munmap]
  refine ⟨_, rfl, ?_⟩
  by_cases hm : (w.space.munmap a (n * size).toNat os.munmapAnswer).1 = true
  · simp only [hm, if_true]
    simp [Server.unsetAddrMap, Server.unsetHndlNPages, ServerOp.call]
  · simp only [hm]
    simp

lemma performed_handle_noDefaultEntry (hs : InStep w.server) (p : Packet) :
    ∀ x ∈ (Server.handle p).performed (ServerOp.exec os) w, NoDefaultEntry os x := by
  have hkey (k : Handle) : NoDefaultEntry os (w, .containsKey k) := by simp [NoDefaultEntry]
  -- after the handle check, the operations are those of a live handle or none
  have hchecked (f : ServerM Packet)
      (hf : ∀ a n, Live w.server p.hndl a n →
        ∀ x ∈ f.performed (ServerOp.exec os) w, NoDefaultEntry os x) :
      ∀ x ∈ (do
          if ← Server.containsKey p.hndl then f
          else return { p with error := invalidHandle } : ServerM Packet).performed
            (ServerOp.exec os) w, NoDefaultEntry os x := by
    rw [Program.performed_bind, performed_containsKey, run_containsKey]
    by_cases hk : w.server.addrMap.find p.hndl = none
    · simp [UnorderedMap.Contains, hk, hkey]
    · obtain ⟨a, n, hl⟩ := hs.live hk
      simpa [UnorderedMap.Contains, hk, hkey] using hf a n hl
  have hlookups {a : Nat} {n : UInt32} (hl : Live w.server p.hndl a n) :
      ∀ x ∈ [(w, ServerOp.getHndlNPages p.hndl), (w, ServerOp.getAddrMap p.hndl)],
        NoDefaultEntry os x := by
    simp [noDefaultEntry_getAddrMap os hl, noDefaultEntry_getHndlNPages os hl]
  rw [Server.handle]
  split
  · rw [Server.handleAlloc, Program.performed_bind, List.forall_mem_append]
    refine ⟨performed_alloc_noDefaultEntry os w _ _, ?_⟩
    split <;> simp
  split
  · apply hchecked
    intro a n hl
    rw [Program.performed_bind, performed_read_live os w hl, List.forall_mem_append,
      List.forall_mem_append]
    refine ⟨⟨hlookups hl, ?_⟩, ?_⟩
    · split <;> simp [NoDefaultEntry]
    · simp only [run_read_live os w hl]
      split <;> simp
  split
  · apply hchecked
    intro a n hl
    rw [Program.performed_bind, performed_write_live os w hl, List.forall_mem_append,
      List.forall_mem_append]
    refine ⟨⟨hlookups hl, ?_⟩, ?_⟩
    · split <;> simp [NoDefaultEntry]
    · split <;> simp
  split
  · apply hchecked
    intro a n hl
    obtain ⟨rest, hrest, hops⟩ := performed_free_live os hl (hs.npages_ne _ _ hl.2) p.size
    rw [Program.performed_bind, hrest, List.forall_mem_append, List.forall_mem_append]
    refine ⟨⟨?_, ?_⟩, ?_⟩
    · have hm (len : Nat) : NoDefaultEntry os (w, .munmap a len) := by simp [NoDefaultEntry]
      simp [hkey, hm, noDefaultEntry_getAddrMap os hl, noDefaultEntry_getHndlNPages os hl]
    · intro x hx k hk
      rcases hops x hx with h | h <;> simp [h] at hk
    · split <;> simp
  · simp

/-- Past the check of `handle_free`, the checks in `free` succeed. -/
lemma performed_handleFree_passes (hs : InStep w.server) (p : Packet) :
    ∀ x ∈ ((Server.handleFree p).performed (ServerOp.exec os) w).tail, PassesCheck os x := by
  rw [Server.handleFree, Program.performed_bind, performed_containsKey, run_containsKey]
  by_cases hk : w.server.addrMap.find p.hndl = none
  · simp [UnorderedMap.Contains, hk]
  · obtain ⟨a, n, hl⟩ := hs.live hk
    have hn := hs.npages_ne _ _ hl.2
    obtain ⟨rest, hrest, hops⟩ := performed_free_live os hl hn p.size
    have hkey : PassesCheck os (w, .containsKey p.hndl) := by
      simp [PassesCheck, ServerOp.exec, UnorderedMap.Contains, hk]
    have hpages : PassesCheck os (w, .getHndlNPages p.hndl) := by
      refine ⟨by simp, ?_⟩
      rintro k hk
      obtain rfl : p.hndl = k := by simpa using hk
      rw [show ServerOp.exec os (.getHndlNPages p.hndl) w = (n, w) from
        run_getHndlNPages_live os w hl]
      exact hn
    have hother {op : ServerOp} (w' : Host) (h1 : ∀ k, op ≠ .containsKey k)
        (h2 : ∀ k, op ≠ .getHndlNPages k) : PassesCheck os (w', op) :=
      ⟨fun k hk => absurd hk (h1 k), fun k hk => absurd hk (h2 k)⟩
    simp only [UnorderedMap.Contains, ne_eq, hk, not_false_eq_true, decide_true, if_true,
      Program.performed_bind, hrest, List.cons_append, List.nil_append, List.tail_cons,
      List.forall_mem_cons, List.forall_mem_append]
    refine ⟨hkey, hpages, hother w (by simp) (by simp), hother w (by simp) (by simp), ?_, ?_⟩
    · intro x hx
      apply hother
      · intro k hk
        rcases hops x hx with h | h <;> simp [h] at hk
      · intro k hk
        rcases hops x hx with h | h <;> simp [h] at hk
    · split <;> simp

end Lookups

/-- In every state the server reaches, the two maps have the same keys, no address is null and no
page count is 0; no lookup of a further call inserts an entry, and in `free` as called by
`handle_free` the handle is there and its page count is not 0. -/
theorem maps_stay_in_step {mem : Nat → UInt8} {tr : List (Host × Call)} {w : Host}
    (h : Run Host.NonNullStep (Host.fresh mem) tr w) :
    (∀ k, w.server.addrMap.Contains k ↔ w.server.hndlNPages.Contains k) ∧
      (∀ k a, w.server.addrMap.find k = some a → a ≠ 0) ∧
      (∀ k n, w.server.hndlNPages.find k = some n → 1 ≤ n) ∧
      ∀ os p,
        (∀ x ∈ (Server.handle p).performed (ServerOp.exec os) w, NoDefaultEntry os x) ∧
        ∀ x ∈ ((Server.handleFree p).performed (ServerOp.exec os) w).tail, PassesCheck os x := by
  have hs := nonNull_run_inStep h
  refine ⟨fun k => not_congr (hs.keys k), hs.addr_ne, ?_, ?_⟩
  · intro k n hn
    have hne := hs.npages_ne k n hn
    rw [UInt32.le_iff_toNat_le, UInt32.toNat_one]
    have : n.toNat ≠ 0 := fun h0 => hne (UInt32.toNat_inj.mp h0)
    omega
  · intro os p
    exact ⟨performed_handle_noDefaultEntry os hs p, performed_handleFree_passes os hs p⟩

theorem one_page_in_step :
    onePageHost.server.addrMap.Contains 0 ∧ onePageHost.server.hndlNPages.Contains 0 :=
  ⟨by decide +kernel, ((maps_stay_in_step onePageHost_run).1 0).mp (by decide +kernel)⟩

/-! ### Success and failure -/

/-- The failing branches of a call, each with the error it reports. -/
inductive Failure (os : Os) (w : Host) (p : Packet) : UInt32 → Prop
  | mmapFails (ha : p.action = 0)
      (hm : (w.space.mmap (p.npages * p.size).toNat os.mmapAnswer).1 = none) :
      Failure os w p allocFailed
  | unknownHandle (ha : p.action = 1 ∨ p.action = 2 ∨ p.action = 3)
      (hd : w.server.addrMap.find p.hndl = none) : Failure os w p invalidHandle
  | readPastEnd (ha : p.action = 1) (a : Nat) (n : UInt32) (hl : Live w.server p.hndl a n)
      (ho : n ≤ p.offset) : Failure os w p readFailed
  | writePastEnd (ha : p.action = 2) (a : Nat) (n : UInt32) (hl : Live w.server p.hndl a n)
      (ho : n ≤ p.offset) : Failure os w p writeFailed
  | munmapFails (ha : p.action = 3) (a : Nat) (n : UInt32) (hl : Live w.server p.hndl a n)
      (hm : (w.space.munmap a (n * p.size).toNat os.munmapAnswer).1 = false) :
      Failure os w p freeFailed
  | unknownAction (h0 : p.action ≠ 0) (h1 : p.action ≠ 1) (h2 : p.action ≠ 2)
      (h3 : p.action ≠ 3) : Failure os w p unknownAction

/-- The requested operation succeeds: `handle` calls it and it does not return -1. -/
def Succeeds (os : Os) (w : Host) (p : Packet) : Prop :=
  (p.action = 0 ∧ ((Server.alloc p.npages p.size).run (ServerOp.exec os) w).1 ≠ -1) ∨
    (w.server.addrMap.Contains p.hndl ∧
      ((p.action = 1 ∧ ((Server.read p.hndl p).run (ServerOp.exec os) w).1.1 ≠ -1) ∨
        (p.action = 2 ∧ ((Server.write p.hndl p).run (ServerOp.exec os) w).1 ≠ -1) ∨
        (p.action = 3 ∧ ((Server.free p.hndl p.size).run (ServerOp.exec os) w).1 ≠ -1)))

section Branches

variable {os : Os} {w : Host} {p : Packet}

lemma Failure.error_ne_zero {e : UInt32} (hf : Failure os w p e) : e ≠ 0 := by
  cases hf <;> decide

lemma Failure.unique {e e' : UInt32} (hf : Failure os w p e) (hf' : Failure os w p e') :
    e = e' := by
  cases hf <;> cases hf' <;> simp_all [Live]

lemma Failure.not_succeeds (hs : InStep w.server) {e : UInt32} (hf : Failure os w p e) :
    ¬Succeeds os w p := by
  cases hf with
  | mmapFails ha hm =>
    have hr := run_alloc os w p.npages p.size
    generalize hx : w.space.mmap (p.npages * p.size).toNat os.mmapAnswer = x at hm hr
    obtain ⟨r, v⟩ := x
    obtain rfl : r = none := hm
    simp [Succeeds, ha, hr]
  | unknownHandle ha hd =>
    have h0 : p.action ≠ 0 := by rcases ha with ha | ha | ha <;> simp [ha]
    simp [Succeeds, h0, UnorderedMap.Contains, hd]
  | readPastEnd ha a n hl ho => simp [Succeeds, ha, run_read_live os w hl, ho]
  | writePastEnd ha a n hl ho => simp [Succeeds, ha, run_write_live os w hl, ho]
  | munmapFails ha a n hl hm =>
    have hr := run_free_live os w hl (hs.npages_ne _ _ hl.2) p.size
    rw [hm] at hr
    simp [Succeeds, ha, hr]
  | unknownAction h0 h1 h2 h3 => simp [Succeeds, h0, h1, h2, h3]

/-- A call either fails, reports it and changes nothing else, or succeeds and leaves the error
field as it came. -/
lemma handle_verdict (os : Os) (p : Packet) (hs : InStep w.server) :
    (∃ e, Failure os w p e ∧ w.handle os p = ({ p with error := e }, w)) ∨
      (Succeeds os w p ∧ (w.handle os p).1.error = p.error) := by
  have ho := handle_outcome os w p hs
  generalize hr : w.handle os p = r at ho
  obtain ⟨reply, w'⟩ := r
  have hkey {a : Nat} {n : UInt32} (hl : Live w.server p.hndl a n) :
      w.server.addrMap.Contains p.hndl := by simp [UnorderedMap.Contains, hl.1]
  dsimp only at ho ⊢
  cases ho with
  | allocFailed ha hm => exact Or.inl ⟨_, .mmapFails ha hm, rfl⟩
  | alloced ha a hlen hm =>
    have hrun := run_alloc os w p.npages p.size
    have hsome : (w.space.mmap (p.npages * p.size).toNat os.mmapAnswer).1 = some a := by
      rw [hm]
      exact w.space.mmap_some hlen
    generalize w.space.mmap (p.npages * p.size).toNat os.mmapAnswer = x at hsome hrun
    obtain ⟨r, v⟩ := x
    obtain rfl : r = some a := hsome
    refine Or.inr ⟨Or.inl ⟨ha, ?_⟩, rfl⟩
    rw [hrun]
    exact handleOfCount_ne_neg_one _
  | readInvalid ha hd => exact Or.inl ⟨_, .unknownHandle (Or.inl ha) hd, rfl⟩
  | readFailed ha a n hl ho => exact Or.inl ⟨_, .readPastEnd ha a n hl ho, rfl⟩
  | read ha a n hl ho =>
    refine Or.inr ⟨Or.inr ⟨hkey hl, Or.inl ⟨ha, ?_⟩⟩, rfl⟩
    simp [run_read_live os w hl, UInt32.not_le.mpr ho]
  | writeInvalid ha hd => exact Or.inl ⟨_, .unknownHandle (Or.inr (Or.inl ha)) hd, rfl⟩
  | writeFailed ha a n hl ho => exact Or.inl ⟨_, .writePastEnd ha a n hl ho, rfl⟩
  | written ha a n hl ho =>
    refine Or.inr ⟨Or.inr ⟨hkey hl, Or.inr (Or.inl ⟨ha, ?_⟩)⟩, rfl⟩
    simp [run_write_live os w hl, UInt32.not_le.mpr ho]
  | freeInvalid ha hd => exact Or.inl ⟨_, .unknownHandle (Or.inr (Or.inr ha)) hd, rfl⟩
  | freeFailed ha a n hl hm => exact Or.inl ⟨_, .munmapFails ha a n hl hm, rfl⟩
  | freed ha a n hl hm =>
    refine Or.inr ⟨Or.inr ⟨hkey hl, Or.inr (Or.inr ⟨ha, ?_⟩)⟩, rfl⟩
    rw [run_free_live os w hl (hs.npages_ne _ _ hl.2), if_pos hm]
    simp
  | unknown h0 h1 h2 h3 => exact Or.inl ⟨_, .unknownAction h0 h1 h2 h3, rfl⟩

lemma Failure.handle_eq (hs : InStep w.server) {e : UInt32} (hf : Failure os w p e) :
    w.handle os p = ({ p with error := e }, w) := by
  rcases handle_verdict os p hs with ⟨e', hf', hr⟩ | ⟨hsucc, -⟩
  · rw [hr, hf.unique hf']
  · exact absurd hsucc (hf.not_succeeds hs)

lemma succeeds_iff (hs : InStep w.server) : Succeeds os w p ↔ ∀ e, ¬Failure os w p e := by
  constructor
  · intro hsucc e hf
    exact hf.not_succeeds hs hsucc
  · intro hno
    rcases handle_verdict os p hs with ⟨e, hf, -⟩ | ⟨hsucc, -⟩
    · exact absurd hf (hno e)
    · exact hsucc

lemma handle_error_snd (os : Os) (w : Host) (p : Packet) (e : UInt32) :
    (w.handle os { p with error := e }).2 = (w.handle os p).2 := by
  simp only [Host.handle, Server.handle, Server.handleAlloc, Server.handleRead, Server.read,
    Server.handleWrite, Server.write, Server.handleFree, Program.run_bind, Program.run_ite,
    Program.run_pure, apply_ite Prod.snd, ite_self]

lemma Failure.with_error {e : UInt32} (hf : Failure os w p e) (e' : UInt32) :
    Failure os w { p with error := e' } e := by
  cases hf with
  | mmapFails ha hm => exact .mmapFails ha hm
  | unknownHandle ha hd => exact .unknownHandle ha hd
  | readPastEnd ha a n hl ho => exact .readPastEnd ha a n hl ho
  | writePastEnd ha a n hl ho => exact .writePastEnd ha a n hl ho
  | munmapFails ha a n hl hm => exact .munmapFails ha a n hl hm
  | unknownAction h0 h1 h2 h3 => exact .unknownAction h0 h1 h2 h3

lemma handle_error_of_succeeds (hs : InStep w.server) (hno : ∀ e, ¬Failure os w p e) :
    (w.handle os p).1.error = p.error := by
  rcases handle_verdict os p hs with ⟨e, hf, -⟩ | ⟨-, hr⟩
  · exact absurd hf (hno e)
  · exact hr

end Branches

/-- In a state the server reaches, a call that takes a failing branch leaves the server and every
field of the packet but `error` as they were; a call that takes none of them succeeds. -/
theorem failing_call_changes_nothing {mem : Nat → UInt8} {tr : List (Host × Call)} {w : Host}
    (h : Run Host.NonNullStep (Host.fresh mem) tr w) (os : Os) (p : Packet) :
    (∀ e, Failure os w p e → w.handle os p = ({ p with error := e }, w)) ∧
      ((∀ e, ¬Failure os w p e) → Succeeds os w p) := by
  have hs := nonNull_run_inStep h
  exact ⟨fun e hf => hf.handle_eq hs, (succeeds_iff hs).mpr⟩

theorem one_page_read_past_end :
    onePageHost.handle ⟨none, true⟩ { onePage 0 with action := 1, offset := 1 } =
      ({ onePage 0 with action := 1, offset := 1, error := readFailed }, onePageHost) :=
  (failing_call_changes_nothing onePageHost_run _ _).1 _
    (.readPastEnd rfl 4096 1 onePageHost_live (by decide))

/-- In a state the server reaches, a zero error in the reply means success exactly when the packet
came with a zero error or the request fails. The incoming error has no influence on the state,
and none on the reply exactly when the request fails. -/
theorem reply_error_iff {mem : Nat → UInt8} {tr : List (Host × Call)} {w : Host}
    (h : Run Host.NonNullStep (Host.fresh mem) tr w) (os : Os) (p : Packet) :
    (((w.handle os p).1.error = 0 ↔ Succeeds os w p) ↔
        (p.error = 0 ∨ ∃ e, Failure os w p e)) ∧
      ∀ e', (w.handle os { p with error := e' }).2 = (w.handle os p).2 ∧
        ((w.handle os { p with error := e' }).1.error = (w.handle os p).1.error ↔
          (e' = p.error ∨ ∃ e, Failure os w p e)) := by
  have hs := nonNull_run_inStep h
  by_cases hf : ∃ e, Failure os w p e
  · obtain ⟨e, hf⟩ := hf
    have hno := hf.not_succeeds hs
    have hex : ∃ e, Failure os w p e := ⟨e, hf⟩
    constructor
    · simp [hf.handle_eq hs, hno, hex, hf.error_ne_zero]
    · intro e'
      refine ⟨handle_error_snd os w p e', ?_⟩
      simp [hf.handle_eq hs, (hf.with_error e').handle_eq hs, hex]
  · have hno : ∀ e, ¬Failure os w p e := not_exists.mp hf
    have hsucc := (succeeds_iff hs).mpr hno
    constructor
    · simp [handle_error_of_succeeds hs hno, hsucc, hf]
    · intro e'
      have hno' : ∀ e, ¬Failure os w { p with error := e' } e :=
        fun e hfe => hno e (hfe.with_error p.error)
      refine ⟨handle_error_snd os w p e', ?_⟩
      rw [handle_error_of_succeeds hs hno, handle_error_of_succeeds hs hno']
      simp [hf]

theorem one_page_reply_tells :
    ((onePageHost.handle ⟨none, true⟩ (onePage 0)).1.error = 0 ↔
      Succeeds ⟨none, true⟩ onePageHost (onePage 0)) :=
  (reply_error_iff onePageHost_run _ _).1.mpr (Or.inl rfl)

theorem alloc_reply_keeps_error :
    ¬∀ (mem : Nat → UInt8) (tr : List (Host × Call)) (w : Host),
      Run Host.NonNullStep (Host.fresh mem) tr w → ∀ os p, os.NonNull →
        ((w.handle os p).1.error = 0 ↔ Succeeds os w p) ∧
          ∀ e', (w.handle os { p with error := e' }).2 = (w.handle os p).2 ∧
            (w.handle os { p with error := e' }).1.error = (w.handle os p).1.error := by
  intro hall
  have h := (hall (fun _ => 0) [] _ Run.nil ⟨some 4096, true⟩ (onePage 7) some_4096_nonNull).1
  have hsucc : Succeeds ⟨some 4096, true⟩ (Host.fresh fun _ => 0) (onePage 7) :=
    Or.inl ⟨rfl, by decide +kernel⟩
  have herr : ((Host.fresh fun _ => 0).handle ⟨some 4096, true⟩ (onePage 7)).1.error = 7 := by
    decide +kernel
  rw [herr] at h
  exact absurd (h.mpr hsucc) (by decide)

end RemoteMemoryPool.Proofs
