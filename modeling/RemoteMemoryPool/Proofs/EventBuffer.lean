import RemoteMemoryPool.Proofs.ThreadPhases

/-!
# The event buffer of the fault handlers

All handler threads read their events into one static `msg` and take the faulting address and
operation from it before they lock `fault_handler_cr`. `handlers_resolve_own` says that every
handler resolves the event it read in its own region, in every run in which no handler reads
another event between the read of a handler and its look at `msg`.
-/

namespace RemoteMemoryPool.Proofs

open Interaction Transition

section Histories

variable {κ : Type} [DecidableEq κ]

/-- The events read by the handlers after one more step, which leads to `c'`. -/
def readAfter (read : κ → Option UffdMsg) (e : ProcessEvent κ) (c' : Process κ) : κ → Option UffdMsg :=
  match e with
  | .act ⟨k, .readMsg _, _⟩ => Function.update read k (some c'.state.globals.msg)
  | _ => read

/-- The event each handler read last, in the run `h` to `c`. -/
def lastRead (h : History κ) (c : Process κ) : κ → Option UffdMsg :=
  (transitions h c).foldl (fun read x => readAfter read x.1.2 x.2) (fun _ => none)

/-- For each handler, the events the others have read since it read its own last one, and those of
them that they had read when it last looked at the variables, after one more step. -/
def straysAfter (strays : κ → List UffdMsg × List UffdMsg) (e : ProcessEvent κ) (c' : Process κ) :
    κ → List UffdMsg × List UffdMsg :=
  match e with
  | .act ⟨k, .readMsg _, _⟩ =>
    Function.update (fun j => ((strays j).1 ++ [c'.state.globals.msg], (strays j).2)) k ([], [])
  | .act ⟨k, .get, _⟩ => Function.update strays k ((strays k).1, (strays k).1)
  | _ => strays

def strays (h : History κ) (c : Process κ) : κ → List UffdMsg × List UffdMsg :=
  (transitions h c).foldl (fun s x => straysAfter s x.1.2 x.2) (fun _ => ([], []))

/-- The events that other handlers read after the last one of the handler `k` and before its last
look at the variables. -/
def readsInBetween (h : History κ) (c : Process κ) (k : κ) : List UffdMsg := (strays h c k).2

/-- Two events have the same address and are both writes or both reads. -/
def SameFault (m v : UffdMsg) : Prop :=
  v.address = m.address ∧ v.flags &&& uffdPagefaultFlagWrite = m.flags &&& uffdPagefaultFlagWrite

instance (m v : UffdMsg) : Decidable (SameFault m v) := inferInstanceAs (Decidable (_ ∧ _))

/-- If the step is a handler's lock, no other handler has read an event between the handler's own
read and its last look at the variables, or the last of these events is the same fault. -/
def Undisturbed (h : History κ) (x : Process κ × ProcessEvent κ) : Prop :=
  ∀ k, x.2 = .act ⟨k, .lock, ()⟩ → ∀ m ∈ lastRead h x.1 k,
    ∀ v ∈ (readsInBetween h x.1 k).getLast?, SameFault m v

def recordAddr (uffd : Int) (addr : Nat) (g : Globals) : Globals :=
  { g with uffdPrevResolvedAddr := g.uffdPrevResolvedAddr.set uffd (pgRoundDown addr) }

def recordOp (uffd : Int) (op : Nat) (g : Globals) : Globals :=
  { g with uffdPrevResolvedOp := g.uffdPrevResolvedOp.set uffd op }

/-- What a handler does with `page_resolver`, `UFFDIO_COPY` and its records is right for the event
`read` it read last from its own descriptor: a fault is resolved at the event's address, the copy
goes to the event's page, and the event's page and operation are recorded for the descriptor. A
page is written back as it was recorded for the descriptor. -/
def ResolvesOwn (uffd : Int) (read : Option UffdMsg) (g : Globals) : ClientOp → Prop
  | .readMsg u => u = uffd
  | .enterResolver call =>
    g.uffdStartAddrMap.find uffd = some call.startAddr ∧
      if call.isWrite = 0 then ∃ m, read = some m ∧ call.faultingAddr = m.address ∧
        m.flags &&& uffdPagefaultFlagWrite = 0
      else g.uffdPrevResolvedAddr.find uffd = some call.faultingAddr ∧
        g.uffdPrevResolvedOp.find uffd = some call.isWrite
  | .uffdioCopy u dst _ => ∃ m, read = some m ∧ u = uffd ∧ dst = pgRoundDown m.address
  | .modify f => ∃ m, read = some m ∧ (f = recordAddr uffd m.address ∨
      f = recordOp uffd (m.flags &&& uffdPagefaultFlagWrite))
  | _ => True

/-- The handler threads of the regions with the descriptors `uffd k`, each up to its `n k`th
iteration. -/
def handlerThreads (uffd : κ → Int) (n : κ → Nat) (k : κ) : ClientM Unit :=
  Uffdman.faultHandlerThread Client.rmpPagefaultResovler (uffd k) (n k)

end Histories

/-! ### The phases of a handler -/

/-- Where a handler is: outside its critical section, having read an event or not; with `msg` just
taken; or inside it with the `msg` it took and the variables it has looked at since it locked or
wrote to them. -/
inductive HandlerPhase
  | out (read : Bool)
  | took (msg : UffdMsg)
  | held (msg : UffdMsg) (seen : List Globals)

/-- The operations of the handler of `uffd`. The address and the operation it uses are those of the
`msg` it took, and what it passes on from the maps is what it found there for `uffd`. -/
def HandlerStep (uffd : Int) (q : HandlerPhase) : (op : ClientOp) → op.Res → HandlerPhase → Prop
  | .get, g, q' =>
    match q with
    | .out read => q' = .out read ∨ (read = true ∧ q' = .took g.msg)
    | .took _ => False
    | .held m seen => q' = .held m (g :: seen)
  | .lock, _, q' => ∃ m, q = .took m ∧ q' = .held m []
  | .unlock _, _, q' => (∃ m seen, q = .held m seen) ∧ q' = .out true
  | .readMsg u, _, q' => u = uffd ∧ (∃ read, q = .out read) ∧ q' = .out true
  | .enterResolver call, _, q' => ∃ m seen, q = .held m seen ∧ q' = .held m seen ∧
      (∃ g ∈ seen, g.uffdStartAddrMap.find uffd = some call.startAddr) ∧
      if call.isWrite = 0 then
        call.faultingAddr = m.address ∧ m.flags &&& uffdPagefaultFlagWrite = 0
      else
        (∃ g ∈ seen, g.uffdPrevResolvedAddr.find uffd = some call.faultingAddr) ∧
          ∃ g ∈ seen, g.uffdPrevResolvedOp.find uffd = some call.isWrite
  | .uffdioCopy u dst _, _, q' => ∃ m seen, q = .held m seen ∧ q' = .held m seen ∧ u = uffd ∧
      dst = pgRoundDown m.address
  | .modify f, _, q' => ∃ m seen, q = .held m seen ∧ q' = .held m [] ∧
      (f = recordAddr uffd m.address ∨ f = recordOp uffd (m.flags &&& uffdPagefaultFlagWrite))
  | _, _, q' => q' = q

section Handler

variable {uffd : Int} {m : UffdMsg} {seen : List Globals}

def Holding (m : UffdMsg) (q : HandlerPhase) : Prop := ∃ seen, q = .held m seen

lemma follows_mapAt_held {K V : Type} (M : Globals → UnorderedMap K V) (k : K)
    {post : V → HandlerPhase → Prop}
    (hpost : ∀ g v, (M g).find k = some v → post v (.held m (g :: seen))) :
    (Client.mapAt M k).Follows (HandlerStep uffd) (.held m seen) post := by
  intro g
  refine ⟨.held m (g :: seen), rfl, ?_⟩
  dsimp only [Program.bind]
  cases hv : (M g).find k with
  | none => exact fun r => r.elim
  | some v => exact hpost g v hv

lemma follows_rmpWritePage_held (hd : Handle) (i : Nat) (buf : Buf) :
    (Client.rmpWritePage hd i buf).Follows (HandlerStep uffd) (.held m seen)
      (fun _ q => Holding m q) := by
  simp only [Client.rmpWritePage, Client.get, Client.packetObject, Client.loadPage, Client.send,
    Client.recv, ClientOp.call, Program.perform, Program.follows_bind, Program.follows_ite,
    Program.follows_pure, Program.Follows, HandlerStep, exists_eq_left]
  intro g
  exact ⟨fun _ _ _ _ _ => ⟨_, rfl⟩, fun _ => ⟨_, rfl⟩⟩

lemma follows_rmpReadPage_held (hd : Handle) (i : Nat) (buf : Buf) :
    (Client.rmpReadPage hd i buf).Follows (HandlerStep uffd) (.held m seen)
      (fun _ q => Holding m q) := by
  simp only [Client.rmpReadPage, Client.get, Client.packetObject, Client.storePage, Client.send,
    Client.recv, ClientOp.call, Program.perform, Program.follows_bind, Program.follows_ite,
    Program.follows_pure, Program.Follows, HandlerStep, exists_eq_left]
  intro g
  exact ⟨fun _ _ _ _ _ => ⟨_, rfl⟩, fun _ => ⟨_, rfl⟩⟩

lemma follows_resolver_held {startAddr addr isWrite : Nat} (buf : Buf)
    (hstart : ∃ g ∈ seen, g.uffdStartAddrMap.find uffd = some startAddr)
    (hcall : if isWrite = 0 then addr = m.address ∧ m.flags &&& uffdPagefaultFlagWrite = 0
      else (∃ g ∈ seen, g.uffdPrevResolvedAddr.find uffd = some addr) ∧
        ∃ g ∈ seen, g.uffdPrevResolvedOp.find uffd = some isWrite) :
    (Client.rmpPagefaultResovler startAddr addr isWrite buf).Follows (HandlerStep uffd)
      (.held m seen) (fun _ q => Holding m q) := by
  intro _
  refine ⟨.held m seen, ⟨m, seen, rfl, rfl, hstart, hcall⟩, ?_⟩
  change Program.Follows _ (Client.mapAt Globals.addrHndlMap startAddr >>= _) _ _
  rw [Program.follows_bind]
  apply follows_mapAt_held
  intro g hndl _
  rw [Program.follows_ite]
  exact ⟨fun _ => follows_rmpWritePage_held _ _ _, fun _ => follows_rmpReadPage_held _ _ _⟩

lemma follows_invalidate_held :
    (Uffdman.invalidatePrevResolvedPage Client.rmpPagefaultResovler uffd).Follows (HandlerStep uffd)
      (.held m seen) (fun _ q => Holding m q) := by
  intro g
  refine ⟨.held m (g :: seen), rfl, ?_⟩
  change Program.Follows _ (if _ then Uffdman.invalidate _ _ else pure ()) _ _
  rw [Program.follows_ite]
  refine ⟨fun _ => ?_, fun _ => ⟨_, rfl⟩⟩
  simp only [Uffdman.invalidate, Program.follows_bind]
  apply follows_mapAt_held
  intro g₁ prevResolvedAddr haddr
  apply follows_mapAt_held
  intro g₂ prevResolvedOp hop
  apply follows_mapAt_held
  intro g₃ regionStartAddr hstart
  simp only [Uffdman.resolveWrite, Program.follows_ite]
  constructor
  · intro hne
    refine Program.Follows.mono (follows_resolver_held _ ⟨g₃, by simp, hstart⟩ ?_) ?_
    · rw [if_neg hne]
      exact ⟨⟨g₁, by simp, haddr⟩, g₂, by simp, hop⟩
    · rintro _ q ⟨seen', rfl⟩
      exact fun _ => ⟨_, rfl, _, rfl⟩
  · intro _
    exact fun _ => ⟨_, rfl, _, rfl⟩

lemma follows_resolveRead_held :
    (Uffdman.resolveRead Client.rmpPagefaultResovler uffd m.address
      (m.flags &&& uffdPagefaultFlagWrite)).Follows (HandlerStep uffd) (.held m seen)
      (fun _ q => Holding m q) := by
  rw [Uffdman.resolveRead, Program.follows_ite]
  refine ⟨fun hread => ?_, fun _ => ⟨_, rfl⟩⟩
  rw [Program.follows_bind]
  apply follows_mapAt_held
  intro g regionStartAddr hstart
  apply follows_resolver_held _ ⟨g, by simp, hstart⟩
  rw [if_pos hread]
  exact ⟨rfl, hread⟩

lemma follows_resolveFault_held :
    (Uffdman.resolveFault Client.rmpPagefaultResovler uffd m.address
      (m.flags &&& uffdPagefaultFlagWrite)).Follows (HandlerStep uffd) (.held m seen)
      (fun _ q => Holding m q) := by
  have hcopy (seen' : List Globals) : (do
      if (← Client.uffdioCopy uffd (pgRoundDown m.address) .staticPage) = -1 then
        return false
      else
        Uffdman.recordResolved uffd m.address (m.flags &&& uffdPagefaultFlagWrite)
        return true : ClientM Bool).Follows (HandlerStep uffd) (.held m seen')
          (fun _ q => Holding m q) := by
    intro r
    refine ⟨.held m seen', ⟨m, seen', rfl, rfl, rfl, rfl⟩, ?_⟩
    change Program.Follows _ (if r = -1 then pure false else do
      Uffdman.recordResolved uffd m.address (m.flags &&& uffdPagefaultFlagWrite)
      return true) _ _
    rw [Program.follows_ite]
    refine ⟨fun _ => ⟨_, rfl⟩, fun _ _ => ?_⟩
    refine ⟨.held m [], ⟨m, seen', rfl, rfl, Or.inl rfl⟩, fun _ => ?_⟩
    exact ⟨.held m [], ⟨m, [], rfl, rfl, Or.inr rfl⟩, _, rfl⟩
  rw [Uffdman.resolveFault, Program.follows_bind]
  refine Program.Follows.mono follows_invalidate_held ?_
  rintro _ q ⟨seen₁, rfl⟩
  rw [Program.follows_bind]
  refine Program.Follows.mono follows_resolveRead_held ?_
  rintro _ q ⟨seen₂, rfl⟩
  exact hcopy seen₂

def Outside (q : HandlerPhase) : Prop := ∃ read, q = .out read

lemma follows_handlePagefault :
    (Uffdman.handlePagefault Client.rmpPagefaultResovler uffd).Follows (HandlerStep uffd)
      (.out true) (fun _ q => Outside q) := by
  intro g
  refine ⟨.took g.msg, Or.inr ⟨rfl, rfl⟩, fun _ => ⟨.held g.msg [], ⟨g.msg, rfl, rfl⟩, ?_⟩⟩
  change Program.Follows _ (Uffdman.resolveFault _ _ _ _ >>= _) _ _
  rw [Program.follows_bind]
  refine Program.Follows.mono follows_resolveFault_held ?_
  rintro continues q ⟨seen, rfl⟩
  exact fun _ => ⟨.out true, ⟨⟨_, _, rfl⟩, rfl⟩, true, rfl⟩

lemma follows_faultHandlerIteration (read : Bool) :
    (Uffdman.faultHandlerIteration Client.rmpPagefaultResovler uffd).Follows (HandlerStep uffd)
      (.out read) (fun _ q => Outside q) := by
  intro ready
  refine ⟨.out read, rfl, ?_⟩
  change Program.Follows _ (if ready = -1 then pure false else _) _ _
  rw [Program.follows_ite]
  refine ⟨fun _ => ⟨_, rfl⟩, fun _ nread => ⟨.out true, ⟨rfl, ⟨_, rfl⟩, rfl⟩, ?_⟩⟩
  change Program.Follows _ (if nread = 0 then pure false else if nread = -1 then pure false
    else _) _ _
  rw [Program.follows_ite, Program.follows_ite]
  refine ⟨fun _ => ⟨_, rfl⟩, fun _ => ⟨fun _ => ⟨_, rfl⟩, fun _ g => ⟨.out true, Or.inl rfl, ?_⟩⟩⟩
  change Program.Follows _ (if g.msg.event = .unmap then pure true
    else if g.msg.event ≠ .pagefault then pure false
    else Uffdman.handlePagefault Client.rmpPagefaultResovler uffd) _ _
  rw [Program.follows_ite, Program.follows_ite]
  exact ⟨fun _ => ⟨_, rfl⟩, fun _ => ⟨fun _ => ⟨_, rfl⟩, fun _ => follows_handlePagefault⟩⟩

lemma follows_faultHandlerLoop (n : Nat) (read : Bool) :
    (Uffdman.faultHandlerLoop Client.rmpPagefaultResovler uffd n).Follows (HandlerStep uffd)
      (.out read) (fun _ q => Outside q) := by
  induction n generalizing read with
  | zero => exact ⟨read, rfl⟩
  | succ n ih =>
    simp only [Uffdman.faultHandlerLoop, Program.follows_bind]
    refine Program.Follows.mono (follows_faultHandlerIteration read) ?_
    rintro continues q ⟨read', rfl⟩
    rw [Program.follows_ite]
    exact ⟨fun _ => ih read', fun _ => ⟨read', rfl⟩⟩

lemma follows_handlerThread (n : Nat) :
    (Uffdman.faultHandlerThread Client.rmpPagefaultResovler uffd n).Follows (HandlerStep uffd)
      (.out false) (fun _ q => Outside q) := by
  have hcreate : Uffdman.createPage.Follows (HandlerStep uffd) (.out false)
      (fun _ q => q = .out false) := by
    intro null
    refine ⟨.out false, rfl, ?_⟩
    change Program.Follows _ (if null = true then Client.mmapPage else pure ()) _ _
    rw [Program.follows_ite]
    exact ⟨fun _ _ => ⟨.out false, rfl, rfl⟩, fun _ => rfl⟩
  rw [Uffdman.faultHandlerThread, Program.follows_bind]
  refine Program.Follows.mono hcreate ?_
  rintro _ q rfl
  exact follows_faultHandlerLoop n false

end Handler

structure SameEntries (uffd : Int) (g g' : Globals) : Prop where
  start : g'.uffdStartAddrMap.find uffd = g.uffdStartAddrMap.find uffd
  addr : g'.uffdPrevResolvedAddr.find uffd = g.uffdPrevResolvedAddr.find uffd
  op : g'.uffdPrevResolvedOp.find uffd = g.uffdPrevResolvedOp.find uffd

/-- The phase of the handler of `uffd`, which last read the event `read`, with `between` read by the
others before its last look at `msg`: what it took is the last event read before that look, inside
its critical section it has the address and operation of `read`, and what it found in the maps is
still there. -/
def PhaseOk (uffd : Int) (read : Option UffdMsg) (between : List UffdMsg) (g : Globals) :
    HandlerPhase → Prop
  | .out hasRead => hasRead = true → ∃ m, read = some m
  | .took v => ∃ m, read = some m ∧ v = between.getLast?.getD m
  | .held v gs => (∃ m, read = some m ∧ SameFault m v) ∧ ∀ g' ∈ gs, SameEntries uffd g' g

section Phases

variable {uffd : Int} {read : Option UffdMsg} {between : List UffdMsg} {g g' : Globals}
  {q q' : HandlerPhase} {op : ClientOp} {r : op.Res}

lemma SameEntries.refl (uffd : Int) (g : Globals) : SameEntries uffd g g := ⟨rfl, rfl, rfl⟩

lemma SameEntries.trans {g₁ g₂ g₃ : Globals} (h : SameEntries uffd g₁ g₂)
    (h' : SameEntries uffd g₂ g₃) : SameEntries uffd g₁ g₃ :=
  ⟨h'.start.trans h.start, h'.addr.trans h.addr, h'.op.trans h.op⟩

lemma PhaseOk.mono (h : PhaseOk uffd read between g q) (he : SameEntries uffd g g') :
    PhaseOk uffd read between g' q := by
  cases q with
  | out hasRead => exact h
  | took v => exact h
  | held v gs => exact ⟨h.1, fun g₁ hg => (h.2 g₁ hg).trans he⟩

/-- What an operation of a handler does to the variables: nothing, or it reads an event into `msg`,
or it records a fault for its own descriptor. -/
lemma handler_effect_cases {t : Nat} {s s' : Shared} (hstep : HandlerStep uffd q op r q')
    (heff : op.Effect t s r s') :
    s'.globals = s.globals ∨
      (∃ u msg, op = .readMsg u ∧ s'.globals = { s.globals with msg := msg }) ∨
      ∃ f, op = .modify f ∧ s'.globals = f s.globals ∧
        ((∃ addr, f = recordAddr uffd addr) ∨ ∃ isWrite, f = recordOp uffd isWrite) := by
  cases op with
  | modify f =>
    obtain ⟨m, gs, -, -, hf⟩ := hstep
    obtain rfl : s' = { s with globals := f s.globals } := heff
    exact Or.inr (Or.inr ⟨f, rfl, rfl, hf.imp (fun h => ⟨_, h⟩) (fun h => ⟨_, h⟩)⟩)
  | readMsg u =>
    obtain ⟨msg, rfl⟩ := heff
    exact Or.inr (Or.inl ⟨u, msg, rfl, rfl⟩)
  | recv =>
    obtain ⟨reply, rest, -, -, rfl⟩ := heff
    exact Or.inl rfl
  | get => exact Or.inl (by rw [heff.2])
  | lock => exact Or.inl (by rw [heff.2])
  | pthreadSelf => exact Or.inl (by rw [heff.2])
  | _ => exact Or.inl (by rw [heff])

lemma effect_sameEntries {u : Int} {t : Nat} {s s' : Shared} (hstep : HandlerStep uffd q op r q')
    (heff : op.Effect t s r s') (hu : u ≠ uffd ∨ ∀ f, op ≠ .modify f) :
    SameEntries u s.globals s'.globals := by
  rcases handler_effect_cases hstep heff with hg | ⟨_, msg, -, hg⟩ | ⟨f, hop, hg, hf⟩
  · rw [hg]
    exact .refl _ _
  · rw [hg]
    exact ⟨rfl, rfl, rfl⟩
  · have hne : u ≠ uffd := hu.resolve_right (fun h => h f hop)
    rw [hg]
    rcases hf with ⟨addr, rfl⟩ | ⟨isWrite, rfl⟩
    · constructor <;> simp [recordAddr, hne]
    · constructor <;> simp [recordOp, hne]

lemma effect_msg {t : Nat} {s s' : Shared} (hstep : HandlerStep uffd q op r q')
    (heff : op.Effect t s r s') (hop : ∀ u, op ≠ .readMsg u) :
    s'.globals.msg = s.globals.msg := by
  rcases handler_effect_cases hstep heff with hg | ⟨u, msg, hu, -⟩ | ⟨f, -, hg, hf⟩
  · rw [hg]
  · exact absurd hu (hop u)
  · rw [hg]
    rcases hf with ⟨addr, rfl⟩ | ⟨isWrite, rfl⟩
    · rfl
    · rfl

/-- A handler whose phase is right does the right thing next. -/
lemma PhaseOk.resolvesOwn (h : PhaseOk uffd read between g q) (hstep : HandlerStep uffd q op r q') :
    ResolvesOwn uffd read g op := by
  cases op with
  | readMsg u => exact hstep.1
  | enterResolver call =>
    obtain ⟨m, gs, rfl, -, ⟨g₁, hg₁, hstart⟩, hcall⟩ := hstep
    obtain ⟨⟨e, hread, haddr, hop⟩, hsame⟩ := h
    refine ⟨(hsame g₁ hg₁).start.trans hstart, ?_⟩
    by_cases hw : call.isWrite = 0
    · rw [if_pos hw] at hcall ⊢
      exact ⟨e, hread, hcall.1.trans haddr, hop.symm.trans hcall.2⟩
    · rw [if_neg hw] at hcall ⊢
      obtain ⟨⟨g₂, hg₂, h₂⟩, g₃, hg₃, h₃⟩ := hcall
      exact ⟨(hsame g₂ hg₂).addr.trans h₂, (hsame g₃ hg₃).op.trans h₃⟩
  | uffdioCopy u dst src =>
    obtain ⟨m, gs, rfl, -, hu, hdst⟩ := hstep
    obtain ⟨⟨e, hread, haddr, -⟩, -⟩ := h
    exact ⟨e, hread, hu, by rw [hdst, haddr]⟩
  | modify f =>
    obtain ⟨m, gs, rfl, -, hf⟩ := hstep
    obtain ⟨⟨e, hread, haddr, hop⟩, -⟩ := h
    rw [haddr, hop] at hf
    exact ⟨e, hread, hf⟩
  | _ => trivial

end Phases

/-! ### Runs of the handlers -/

section Runs

variable {κ : Type} [DecidableEq κ] {tid : κ → Nat} {uffd : κ → Int} {h : History κ}
  {c c' : Process κ} {q : κ → HandlerPhase}

lemma lastRead_snoc (h : History κ) (c c' : Process κ) (e : ProcessEvent κ) :
    lastRead (h ++ [(c, e)]) c' = readAfter (lastRead h c) e c' := by
  rw [lastRead, transitions_snoc, List.foldl_append]
  rfl

lemma strays_snoc (h : History κ) (c c' : Process κ) (e : ProcessEvent κ) :
    strays (h ++ [(c, e)]) c' = straysAfter (strays h c) e c' := by
  rw [strays, transitions_snoc, List.foldl_append]
  rfl

lemma readAfter_of_ne {read : κ → Option UffdMsg} {k j : κ} (hj : j ≠ k) (op : ClientOp)
    (r : op.Res) : readAfter read (.act ⟨k, op, r⟩) c' j = read j := by
  cases op with
  | readMsg u => exact Function.update_of_ne hj _ _
  | _ => rfl

lemma straysAfter_of_ne {s : κ → List UffdMsg × List UffdMsg} {k j : κ} (hj : j ≠ k)
    (op : ClientOp) (r : op.Res) : (straysAfter s (.act ⟨k, op, r⟩) c' j).2 = (s j).2 := by
  cases op with
  | readMsg u => simp [straysAfter, hj]
  | get => exact congrArg Prod.snd (Function.update_of_ne hj _ _)
  | _ => rfl

/-- Every handler keeps to its phases, its phase is right, and `msg` has the last event that was
read since the handler's own. -/
structure Handling (uffd : κ → Int) (h : History κ) (c : Process κ) (q : κ → HandlerPhase) :
    Prop where
  follows : ∀ k, (c.threads k).Follows (HandlerStep (uffd k)) (q k) (fun _ _ => True)
  ok : ∀ k, PhaseOk (uffd k) (lastRead h c k) (readsInBetween h c k) c.state.globals (q k)
  msg : ∀ k m, lastRead h c k = some m → c.state.globals.msg = (strays h c k).1.getLast?.getD m

lemma phaseOk_own {k : κ} {op : ClientOp} {r : op.Res} {q' : HandlerPhase}
    (hok : PhaseOk (uffd k) (lastRead h c k) (readsInBetween h c k) c.state.globals (q k))
    (hmsg : ∀ m, lastRead h c k = some m → c.state.globals.msg = (strays h c k).1.getLast?.getD m)
    (hund : Undisturbed h (c, .act ⟨k, op, r⟩)) (hstep : HandlerStep (uffd k) (q k) op r q')
    (heff : op.Effect (tid k) c.state r c'.state) :
    PhaseOk (uffd k) (readAfter (lastRead h c) (.act ⟨k, op, r⟩) c' k)
      (straysAfter (strays h c) (.act ⟨k, op, r⟩) c' k).2 c'.state.globals q' := by
  generalize hq : q k = p at hok hstep
  cases op with
  | get =>
    obtain ⟨hr, hs⟩ := heff
    cases p with
    | out hasRead =>
      rcases hstep with rfl | ⟨rfl, rfl⟩
      · exact hok
      · obtain ⟨m, hm⟩ := hok rfl
        refine ⟨m, hm, ?_⟩
        rw [hr, hmsg m hm]
        simp [straysAfter]
    | took v => exact absurd hstep id
    | held v gs =>
      obtain rfl : q' = .held v (r :: gs) := hstep
      refine ⟨hok.1, ?_⟩
      rw [hs, List.forall_mem_cons, hr]
      exact ⟨.refl _ _, hok.2⟩
  | lock =>
    obtain ⟨v, rfl, rfl⟩ := hstep
    obtain ⟨m, hread, rfl⟩ := hok
    refine ⟨⟨m, hread, ?_⟩, by simp⟩
    have hsame := hund k rfl m hread
    cases hlast : (readsInBetween h c k).getLast? with
    | none => exact ⟨rfl, rfl⟩
    | some v => exact hsame v hlast
  | unlock site =>
    obtain ⟨⟨v, gs, rfl⟩, rfl⟩ := hstep
    obtain ⟨⟨m, hread, -⟩, -⟩ := hok
    exact fun _ => ⟨m, hread⟩
  | readMsg u =>
    obtain ⟨-, -, rfl⟩ := hstep
    exact fun _ => ⟨_, Function.update_self _ _ _⟩
  | modify f =>
    obtain ⟨v, gs, rfl, rfl, -⟩ := hstep
    exact ⟨hok.1, by simp⟩
  | enterResolver call =>
    obtain ⟨v, gs, rfl, rfl, -⟩ := id hstep
    exact hok.mono (effect_sameEntries hstep heff (Or.inr (by simp)))
  | uffdioCopy u dst src =>
    obtain ⟨v, gs, rfl, rfl, -⟩ := id hstep
    exact hok.mono (effect_sameEntries hstep heff (Or.inr (by simp)))
  | _ =>
    have hsame : SameEntries (uffd k) c.state.globals c'.state.globals :=
      effect_sameEntries hstep heff (Or.inr (by simp))
    obtain rfl : q' = p := hstep
    exact hok.mono hsame

lemma msg_step {k : κ} {op : ClientOp} {r : op.Res} {p p' : HandlerPhase}
    (hmsg : ∀ j m, lastRead h c j = some m → c.state.globals.msg = (strays h c j).1.getLast?.getD m)
    (hstep : HandlerStep (uffd k) p op r p') (heff : op.Effect (tid k) c.state r c'.state)
    (j : κ) (m : UffdMsg) (hm : readAfter (lastRead h c) (.act ⟨k, op, r⟩) c' j = some m) :
    c'.state.globals.msg =
      (straysAfter (strays h c) (.act ⟨k, op, r⟩) c' j).1.getLast?.getD m := by
  cases op with
  | readMsg u =>
    by_cases hj : j = k
    · subst hj
      obtain rfl : c'.state.globals.msg = m := by simpa [readAfter] using hm
      simp [straysAfter]
    · simp [straysAfter, hj]
  | get =>
    have hstrays : (straysAfter (strays h c) (.act ⟨k, .get, r⟩) c' j).1 = (strays h c j).1 := by
      by_cases hj : j = k
      · subst hj
        simp [straysAfter]
      · simp [straysAfter, hj]
    rw [effect_msg hstep heff (by simp), hstrays]
    exact hmsg j m hm
  | _ =>
    rw [effect_msg hstep heff (by simp)]
    exact hmsg j m hm

/-- One step of the handlers or of the server. -/
lemma Handling.step (hinj : Function.Injective uffd) {e : ProcessEvent κ} (hI : Handling uffd h c q)
    (hund : Undisturbed h (c, e)) (hs : Process.Step tid c e c') :
    (∃ q', Handling uffd (h ++ [(c, e)]) c' q') ∧
      ∀ k op r, e = .act ⟨k, op, r⟩ →
        ResolvesOwn (uffd k) (lastRead h c k) c.state.globals op := by
  cases e with
  | serve os =>
    obtain ⟨hthreads, request, rest, -, -, hstate⟩ := hs
    have hglobals : c'.state.globals = c.state.globals := by rw [hstate]
    refine ⟨⟨q, ?_, ?_, ?_⟩, by simp⟩
    · rw [hthreads]
      exact hI.follows
    · rw [lastRead_snoc, hglobals]
      unfold readsInBetween
      rw [strays_snoc]
      exact hI.ok
    · rw [lastRead_snoc, strays_snoc, hglobals]
      exact hI.msg
  | act a =>
    obtain ⟨k, op, r⟩ := a
    have hpool : Pool.Step (fun i op => op.Effect (tid i)) c ⟨k, op, r⟩ c' := hs
    obtain ⟨q', hstep, hfollows⟩ := hpool.follows (δ := fun k => HandlerStep (uffd k)) hI.follows
    obtain ⟨next, -, heff, -⟩ := hpool
    refine ⟨⟨_, hfollows, ?_, ?_⟩, ?_⟩
    · intro j
      rw [lastRead_snoc]
      unfold readsInBetween
      rw [strays_snoc]
      by_cases hj : j = k
      · subst hj
        rw [Function.update_self]
        exact phaseOk_own (hI.ok j) (hI.msg j) hund hstep heff
      · rw [Function.update_of_ne hj, readAfter_of_ne hj, straysAfter_of_ne hj]
        have hne : uffd j ≠ uffd k := fun he => hj (hinj he)
        exact (hI.ok j).mono (effect_sameEntries hstep heff (Or.inl hne))
    · rw [lastRead_snoc, strays_snoc]
      exact msg_step hI.msg hstep heff
    · intro k' op' r' he
      cases he
      exact (hI.ok k).resolvesOwn hstep

/-- In every run of the handlers of any number of regions, whatever the order of their steps: if
every handler that locks `fault_handler_cr` was undisturbed between its read of an event and its
look at `msg`, then every handler reads its events from its own descriptor, resolves each at the
event's address with the event's operation, copies to the event's page, and records the event for
its descriptor and for no other; and what it writes back is what it recorded. -/
theorem handlers_resolve_own (hinj : Function.Injective uffd) (n : κ → Nat) (s : Shared)
    {tr : History κ} {c : Process κ}
    (hr : Run (Process.Step tid) ⟨handlerThreads uffd n, s⟩ tr c)
    (hund : ∀ h x, h ++ [x] <+: tr → Undisturbed h x) :
    ∀ h x, h ++ [x] <+: tr → ∀ k op r, x.2 = .act ⟨k, op, r⟩ →
      ResolvesOwn (uffd k) (lastRead h x.1 k) x.1.state.globals op := by
  have hinit : Handling uffd [] (⟨handlerThreads uffd n, s⟩ : Process κ) (fun _ => .out false) :=
    { follows := fun k => (follows_handlerThread (n k)).mono (fun _ _ _ => trivial)
      ok := fun k hread => nomatch hread
      msg := fun k m hread => nomatch hread }
  have hI : ∀ {tr c}, Run (Process.Step tid) ⟨handlerThreads uffd n, s⟩ tr c →
      (∀ h x, h ++ [x] <+: tr → Undisturbed h x) → ∃ q, Handling uffd tr c q := by
    intro tr c hr hund
    apply hr.history_invariant (I := fun h c => ∃ q, Handling uffd h c q)
      (C := fun h c e => Undisturbed h (c, e))
    · rintro h c e c' ⟨q, hq⟩ ht hs
      exact (hq.step hinj ht hs).1
    · exact ⟨_, hinit⟩
    · exact hund
  intro h x hx k op r he
  obtain ⟨hrun, u, hs⟩ := hr.before h x hx
  obtain ⟨q, hq⟩ := hI hrun (fun g y hy => hund g y (hy.trans ((List.prefix_append h [x]).trans hx)))
  exact (hq.step hinj (hund h x hx) hs).2 k op r he

end Runs

section Regions

/-- Two registered regions of one page, at 4096 and 8192, with the descriptors 3 and 4. -/
def twoRegions : Shared :=
  let onePage : Packet :=
    { hndl := 0, npages := 1, size := 4096, offset := 0, action := 0, data := zeroPage, error := 0 }
  let w := ((Host.fresh fun _ => 0).handleAll
    [(⟨some 4096, true⟩, onePage), (⟨some 8192, true⟩, onePage)]).2
  { Shared.fresh with
    host := w
    globals := { Shared.fresh.globals with
      connected := true
      uffdInitialized := true
      addrHndlMap := (UnorderedMap.empty.insert 4096 0).insert 8192 1
      startAddrUffdMap := (UnorderedMap.empty.insert 4096 3).insert 8192 4
      uffdStartAddrMap := (UnorderedMap.empty.insert 3 4096).insert 4 8192 } }

def twoUffds (second : Bool) : Int := if second then 4 else 3

/-- The handlers of the two regions, each for one iteration. -/
def twoHandlers : Process Bool := ⟨handlerThreads twoUffds (fun _ => 1), twoRegions⟩

lemma twoUffds_injective : Function.Injective twoUffds := by
  intro i j h
  cases i <;> cases j <;> simp_all [twoUffds]

/-- `Undisturbed`, as a test. -/
def undisturbed (h : History Bool) (x : Process Bool × ProcessEvent Bool) : Bool :=
  match x.2 with
  | .act ⟨k, .lock, _⟩ =>
    (lastRead h x.1 k).all (fun m =>
      (readsInBetween h x.1 k).getLast?.all (fun v => decide (SameFault m v)))
  | _ => true

lemma undisturbed_sound {h : History Bool} {x : Process Bool × ProcessEvent Bool}
    (hx : undisturbed h x = true) : Undisturbed h x := by
  intro k he m hm v hv
  rw [Option.mem_def] at hm hv
  simpa only [undisturbed, he, hm, hv, Option.all_some, decide_eq_true_eq] using hx

/-- The call of `page_resolver` an event makes, with its thread and arguments. -/
def resolverCall {κ : Type} : ProcessEvent κ → Option (κ × Nat × Nat × Nat)
  | .act ⟨k, .enterResolver call, _⟩ =>
    some (k, call.startAddr, call.faultingAddr, call.isWrite)
  | _ => none

lemma eq_of_resolverCall {κ : Type} {e : ProcessEvent κ} {k : κ} {startAddr addr isWrite : Nat}
    (h : resolverCall e = some (k, startAddr, addr, isWrite)) :
    ∃ call : ResolverCall, e = .act ⟨k, .enterResolver call, ()⟩ ∧ call.startAddr = startAddr ∧
      call.faultingAddr = addr ∧ call.isWrite = isWrite := by
  cases e with
  | serve os => cases h
  | act a =>
    obtain ⟨j, op, r⟩ := a
    cases op with
    | enterResolver call =>
      obtain ⟨rfl, rfl, rfl, rfl⟩ : j = k ∧ call.startAddr = startAddr ∧ call.faultingAddr = addr ∧
          call.isWrite = isWrite := by
        simpa [resolverCall] using h
      exact ⟨call, rfl, rfl, rfl, rfl⟩
    | _ => cases h

/-- The second handler reads its event and looks at it once the first one has looked at its own,
and waits for the mutex while that one is resolved. -/
def readWhileResolving : List (Option Bool) :=
  List.replicate 6 (some false) ++ List.replicate 6 (some true) ++ List.replicate 8 (some false) ++
    [none] ++ List.replicate 6 (some false) ++ List.replicate 8 (some true) ++ [none] ++
    List.replicate 6 (some true)

/-- The second handler reads an event between the first one's read and its look at `msg`. -/
def readInBetween : List (Option Bool) :=
  List.replicate 4 (some false) ++ List.replicate 4 (some true) ++ List.replicate 5 (some false)

theorem two_faults_overlapping :
    ∃ tr c, Run (Process.Step (fun _ => 7)) twoHandlers tr c ∧
      tr.filterMap (fun x => resolverCall x.2) = [(false, 4096, 4096, 0), (true, 8192, 8192, 0)] ∧
      ∀ h x, h ++ [x] <+: tr → ∀ k op r, x.2 = .act ⟨k, op, r⟩ →
        ResolvesOwn (twoUffds k) (lastRead h x.1 k) x.1.state.globals op := by
  have hsome : (twoHandlers.execute (fun _ => 7) readWhileResolving).map (fun y =>
      (y.1.filterMap (fun x => resolverCall x.2), (List.range y.1.length).all
        (fun i => (y.1[i]?).all (undisturbed (y.1.take i))))) =
      some ([(false, 4096, 4096, 0), (true, 8192, 8192, 0)], true) := by
    decide +kernel
  obtain ⟨⟨tr, c⟩, hexec, hx⟩ := Option.map_eq_some_iff.mp hsome
  obtain ⟨hcalls, hall⟩ := Prod.mk.inj hx
  have hrun := run_of_execute hexec
  refine ⟨tr, c, hrun, hcalls, handlers_resolve_own twoUffds_injective _ _ hrun ?_⟩
  refine forall_prefix_iff_take.mpr (fun i hi => undisturbed_sound ?_)
  have hi' := List.all_eq_true.mp hall i (List.mem_range.mpr hi)
  simpa [hi] using hi'

/-- The first handler resolves its own event at the address of the second one's. -/
theorem event_of_other_region_resolved :
    ∃ tr c h x k op r, Run (Process.Step (fun _ => 7)) twoHandlers tr c ∧ h ++ [x] <+: tr ∧
      x.2 = .act ⟨k, op, r⟩ ∧
      ¬ResolvesOwn (twoUffds k) (lastRead h x.1 k) x.1.state.globals op := by
  have hsome : (twoHandlers.execute (fun _ => 7) readInBetween).map (fun y =>
      ((lastRead y.1 y.2 false).map UffdMsg.address, (y.2.advance (fun _ => 7) (some false)).bind
        (fun z => resolverCall z.1))) =
      some (some 4096, some (false, 4096, 8192, 0)) := by
    decide +kernel
  obtain ⟨⟨h, c⟩, hexec, hx⟩ := Option.map_eq_some_iff.mp hsome
  obtain ⟨hread, hnext⟩ := Prod.mk.inj hx
  obtain ⟨⟨e, c'⟩, hadvance, hcall⟩ := Option.bind_eq_some_iff.mp hnext
  have hrun := (run_of_execute hexec).snoc (step_of_advance hadvance)
  obtain ⟨call, rfl, -, haddr, hop⟩ := eq_of_resolverCall hcall
  refine ⟨_, _, h, _, _, _, _, hrun, List.prefix_rfl, rfl, ?_⟩
  rintro ⟨-, hresolves⟩
  rw [if_pos hop] at hresolves
  obtain ⟨m, hm, hm', -⟩ := hresolves
  rw [hm] at hread
  have hm4096 : m.address = 4096 := by simpa using hread
  omega

end Regions

end RemoteMemoryPool.Proofs
