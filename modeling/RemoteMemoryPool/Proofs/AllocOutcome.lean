import RemoteMemoryPool.Model.System

/-!
# Outcomes of `rmp_alloc`

`rmp_alloc` run against arbitrary outcomes of its steps: the local `mmap`, the reply of the
server and the four calls by which the region is registered. It looks only at the first and
at whether there is a connection, so it keeps its promise only if nothing else fails.
-/

namespace RemoteMemoryPool.Proofs

open Interaction

/-- What the steps of one call of `rmp_alloc` give. -/
structure AllocOutcome where
  mmapAnswer : Option Nat
  packetObject : Packet
  reply : Packet
  userfaultfd : Int
  uffdioApi : Int
  uffdioRegister : Int
  pthreadCreate : Int × Nat

/-- The variables of the client and its locally mapped regions, as address and length. -/
structure ClientState where
  globals : Globals
  regions : List (Nat × Nat)

/-- The operations `rmp_alloc` performs, with the given outcomes. A mapping of length 0 fails. -/
def AllocOutcome.exec (o : AllocOutcome) : (op : ClientOp) → ClientState → Option (op.Res × ClientState)
  | .get, s => some (s.globals, s)
  | .modify f, s => some ((), { s with globals := f s.globals })
  | .mmap len, s =>
    if len = 0 then some (none, s)
    else
      match o.mmapAnswer with
      | none => some (none, s)
      | some a => some (some a, { s with regions := (a, len) :: s.regions })
  | .packetObject, s => some (o.packetObject, s)
  | .send _, s => some ((), s)
  | .recv, s => some (o.reply, s)
  | .userfaultfd, s => some (o.userfaultfd, s)
  | .uffdioApi _, s => some (o.uffdioApi, s)
  | .uffdioRegister _ _ _, s => some (o.uffdioRegister, s)
  | .pthreadCreate _, s => some (o.pthreadCreate, s)
  | _, _ => none

def AllocOutcome.alloc (o : AllocOutcome) (npages : UInt32) (s : ClientState) :
    Option (Client.AllocResult × ClientState) :=
  (Client.rmpAlloc npages).runPartial o.exec s

/-- What `uffdman_register_region` returns for the region at `a`. -/
def AllocOutcome.registration (o : AllocOutcome) (npages : UInt32) (a : Nat) (s : ClientState) :
    Option Int :=
  ((Uffdman.registerRegion a npages.toNat).runPartial o.exec s).map Prod.fst

/-- The call returns an address, the server has allocated the pages, the region is registered, and
the client's tables gained its entries and nothing else. -/
def AllocSucceeded (o : AllocOutcome) (npages : UInt32) (s : ClientState)
    (r : Client.AllocResult) (s' : ClientState) : Prop :=
  ∃ a, r = .addr a ∧ o.reply.error = 0 ∧ o.registration npages a s = some 0 ∧
    s.globals.addrHndlMap.find a = none ∧ s.globals.addrNpagesMap.find a = none ∧
    s'.globals.addrHndlMap = s.globals.addrHndlMap.set a o.reply.hndl ∧
    s'.globals.addrNpagesMap = s.globals.addrNpagesMap.set a npages.toNat ∧
    s'.regions = (a, npages.toNat * 4096) :: s.regions

/-- The call returns a failure value and leaves the client's tables and regions as they were. -/
def AllocFailed (s : ClientState) (r : Client.AllocResult) (s' : ClientState) : Prop :=
  (r = .null ∨ r = .mapFailed) ∧ s'.globals.addrHndlMap = s.globals.addrHndlMap ∧
    s'.globals.addrNpagesMap = s.globals.addrNpagesMap ∧ s'.regions = s.regions

def AllOrNothing (o : AllocOutcome) (npages : UInt32) (s : ClientState) : Prop :=
  ∃ r s', o.alloc npages s = some (r, s') ∧
    (AllocSucceeded o npages s r s' ∨ AllocFailed s r s')

/-- Every call by which the region is registered succeeds. -/
def AllocOutcome.Registers (o : AllocOutcome) : Prop :=
  o.userfaultfd ≠ -1 ∧ o.uffdioApi ≠ -1 ∧ o.uffdioRegister ≠ -1 ∧ o.pthreadCreate.1 = 0

instance (o : AllocOutcome) : Decidable o.Registers := inferInstanceAs (Decidable (_ ∧ _ ∧ _ ∧ _))

section Branches

variable (o : AllocOutcome) (npages : UInt32) (s : ClientState)

def registeredState (a : Nat) : ClientState :=
  if o.Registers then
    { s with globals := { s.globals with
      addrTidMap := s.globals.addrTidMap.insert a o.pthreadCreate.2
      startAddrUffdMap := s.globals.startAddrUffdMap.insert a o.userfaultfd
      uffdStartAddrMap := s.globals.uffdStartAddrMap.insert o.userfaultfd a } }
  else s

lemma registerRegion_eq (a : Nat) :
    (Uffdman.registerRegion a npages.toNat).runPartial o.exec s =
      some (if o.Registers then 0 else -1, registeredState o s a) := by
  simp only [Uffdman.registerRegion, Client.userfaultfd, Client.uffdioApi, Client.uffdioRegister,
    Client.pthreadCreate, Client.modify, ClientOp.call, Program.perform, Program.runPartial_bind,
    Program.runPartial, AllocOutcome.exec, Option.bind_some, AllocOutcome.Registers, registeredState]
  by_cases h1 : o.userfaultfd = -1
  · simp [h1]
  by_cases h2 : o.uffdioApi = -1
  · simp [h1, h2, Program.runPartial, AllocOutcome.exec]
  by_cases h3 : o.uffdioRegister = -1
  · simp [h1, h2, h3, Program.runPartial, AllocOutcome.exec]
  by_cases h4 : o.pthreadCreate.1 = 0
  · simp [h1, h2, h3, h4, Program.runPartial, AllocOutcome.exec]
  · simp [h1, h2, h3, h4, Program.runPartial, AllocOutcome.exec]

lemma registration_eq_zero_iff (a : Nat) : o.registration npages a s = some 0 ↔ o.Registers := by
  rw [AllocOutcome.registration, registerRegion_eq]
  by_cases h : o.Registers <;> simp [h]

lemma length_ne_zero {npages : UInt32} (hn : npages ≠ 0) : npages.toNat * 4096 ≠ 0 := by
  have h0 : npages.toNat ≠ 0 := fun h0 => hn (UInt32.toNat_inj.mp h0)
  omega

lemma alloc_mapFailed (h : npages = 0 ∨ o.mmapAnswer = none) :
    o.alloc npages s = some (.mapFailed, s) := by
  simp only [AllocOutcome.alloc, Client.rmpAlloc, Client.mmap, ClientOp.call, Program.perform,
    Program.runPartial_bind, Program.runPartial, AllocOutcome.exec]
  rcases h with rfl | h
  · simp
  · rw [h]
    split <;> simp

/-- Without a connection, the region that has been mapped stays mapped. -/
lemma alloc_null (hn : npages ≠ 0) {a : Nat} (ha : o.mmapAnswer = some a)
    (hc : s.globals.connected = false) :
    o.alloc npages s = some (.null, { s with regions := (a, npages.toNat * 4096) :: s.regions }) := by
  simp only [AllocOutcome.alloc, Client.rmpAlloc, Client.mmap, Client.get, ClientOp.call,
    Program.perform, Program.runPartial_bind, Program.runPartial, AllocOutcome.exec,
    length_ne_zero hn, if_false, ha, Option.bind_some, hc, Bool.false_eq_true,
    Program.runPartial_pure]

/-- With a connection, an address is returned whatever the rest of the steps give. -/
lemma alloc_addr (hn : npages ≠ 0) {a : Nat} (ha : o.mmapAnswer = some a)
    (hc : s.globals.connected = true) :
    ∃ s', o.alloc npages s = some (.addr a, s') ∧
      s'.globals.addrHndlMap = s.globals.addrHndlMap.insert a o.reply.hndl ∧
      s'.globals.addrNpagesMap = s.globals.addrNpagesMap.insert a npages.toNat ∧
      s'.regions = (a, npages.toNat * 4096) :: s.regions := by
  simp only [AllocOutcome.alloc, Client.rmpAlloc, Client.mmap, Client.get, Client.packetObject,
    Client.send, Client.recv, Client.modify, ClientOp.call, Program.perform,
    Program.runPartial_bind, Program.runPartial, AllocOutcome.exec, length_ne_zero hn, if_false, ha,
    Option.bind_some, hc, if_true, registerRegion_eq, Program.runPartial_pure]
  refine ⟨_, rfl, ?_⟩
  by_cases hr : o.Registers <;> simp [registeredState, hr]

end Branches

/-- `rmp_alloc` is all-or-nothing exactly if the local `mmap` fails, or the client is connected,
the reply carries no error, the registration succeeds and the address has no entry yet. -/
theorem all_or_nothing_iff (o : AllocOutcome) (npages : UInt32) (s : ClientState) :
    AllOrNothing o npages s ↔
      (npages = 0 ∨ o.mmapAnswer = none) ∨
        ∃ a, o.mmapAnswer = some a ∧ s.globals.connected = true ∧ o.reply.error = 0 ∧ o.Registers ∧
          s.globals.addrHndlMap.find a = none ∧ s.globals.addrNpagesMap.find a = none := by
  by_cases hfail : npages = 0 ∨ o.mmapAnswer = none
  · simp only [hfail, true_or, iff_true]
    exact ⟨_, _, alloc_mapFailed o npages s hfail, Or.inr ⟨Or.inr rfl, rfl, rfl, rfl⟩⟩
  rw [not_or] at hfail
  obtain ⟨hn, hsome⟩ := hfail
  obtain ⟨a, ha⟩ := Option.ne_none_iff_exists'.mp hsome
  simp only [hn, hsome, or_self, false_or]
  cases hc : s.globals.connected with
  | false =>
    have hnull := alloc_null o npages s hn ha hc
    constructor
    · rintro ⟨r, s', hr, hcase⟩
      obtain ⟨rfl, rfl⟩ : Client.AllocResult.null = r ∧ _ = s' := by simpa using hnull.symm.trans hr
      rcases hcase with ⟨b, hb, -⟩ | ⟨-, -, -, hregions⟩
      · cases hb
      · simp at hregions
    · simp
  | true =>
    obtain ⟨s', haddr, hhndl, hnpages, hregions⟩ := alloc_addr o npages s hn ha hc
    constructor
    · rintro ⟨r, s'', hr, hcase⟩
      obtain ⟨rfl, rfl⟩ : Client.AllocResult.addr a = r ∧ s' = s'' := by
        simpa using haddr.symm.trans hr
      rcases hcase with ⟨b, hb, herr, hreg, hfree, hfree', -⟩ | ⟨hr | hr, -⟩
      · obtain rfl : a = b := by simpa using hb
        exact ⟨a, ha, rfl, herr, (registration_eq_zero_iff o npages s a).mp hreg, hfree, hfree'⟩
      · cases hr
      · cases hr
    · rintro ⟨b, hb, -, herr, hreg, hfree, hfree'⟩
      obtain rfl : a = b := Option.some.inj (ha.symm.trans hb)
      refine ⟨_, s', haddr, Or.inl ⟨a, rfl, herr, (registration_eq_zero_iff o npages s a).mpr hreg,
        hfree, hfree', ?_, ?_, hregions⟩⟩
      · rw [hhndl, UnorderedMap.insert_of_find_none _ _ _ hfree]
      · rw [hnpages, UnorderedMap.insert_of_find_none _ _ _ hfree']

/-- Everything succeeds but the allocation on the server. -/
def refusedOutcome : AllocOutcome where
  mmapAnswer := some 4096
  packetObject := ⟨0, 0, 0, 0, 0, zeroPage, 0⟩
  reply := ⟨0, 1, 4096, 0, 0, zeroPage, allocFailed⟩
  userfaultfd := 3
  uffdioApi := 0
  uffdioRegister := 0
  pthreadCreate := (0, 1)

def connectedClient : ClientState := ⟨(System.init fun _ => 0).globals, []⟩

/-- The server refuses the allocation, and `rmp_alloc` returns an address all the same. -/
theorem refused_alloc_returns_address :
    ¬∀ (o : AllocOutcome) (npages : UInt32) (s : ClientState), AllOrNothing o npages s := by
  intro hall
  obtain ⟨s', haddr, -⟩ := alloc_addr refusedOutcome 1 connectedClient (by decide) rfl rfl
  obtain ⟨r, s'', hr, hcase⟩ := hall refusedOutcome 1 connectedClient
  obtain ⟨rfl, rfl⟩ : Client.AllocResult.addr 4096 = r ∧ s' = s'' := by
    simpa using haddr.symm.trans hr
  rcases hcase with ⟨a, -, herr, -⟩ | ⟨hr | hr, -⟩
  · exact absurd herr (by decide)
  · cases hr
  · cases hr

end RemoteMemoryPool.Proofs
